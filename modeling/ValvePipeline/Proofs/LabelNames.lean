import ValvePipeline.Engine
import ValvePipeline.Proofs.Labels
import ValvePipeline.Proofs.Trimming
import ValvePipeline.Proofs.UnwindingBlocks

/-!
Names of labels. Breaks name a label when a valve is put together or when a script asks for one, and a scope
names its own when it is built; each trims what it is given, and a boundary compares exactly. All of them
agree: a break ends at a boundary just if the two names are the same but for the blanks around them.
-/

set_option autoImplicit false
set_option relaxedAutoImplicit false

namespace ValvePipeline

theorem checkLabel_eq_ok (label : String) (hblank : Text.trim label ≠ "")
    (htop : Text.trim label ≠ Signal.topLabel) : checkLabel label = .ok (Text.trim label) :=
  (checkLabel_eq_ok_iff label _).mpr ⟨rfl, hblank, htop⟩

theorem labelSignal_eq (label : String) : labelSignal label =
    if Text.trim label = "" then .error (.badLabel label) else .ok (.toLabel label) := by
  by_cases htop : Text.trim label = Signal.topLabel
  · have hblank : Text.trim label ≠ "" := by
      rw [htop]
      decide
    rw [labelSignal, if_pos htop, if_neg hblank, Signal.toLabel, if_pos htop]
  · rw [labelSignal, if_neg htop, Signal.toLabel, if_neg htop]
    by_cases hblank : Text.trim label = ""
    · rw [if_pos hblank, checkLabel, if_pos (.inl hblank)]
      rfl
    · rw [if_neg hblank, checkLabel_eq_ok label hblank htop]
      rfl

theorem Signal.atBoundary_toLabel (label : String) (scope : Option String)
    (hscope : scope ≠ some topLabel) : (toLabel label).atBoundary scope =
      if scope = some (Text.trim label) then .absorb else .propagate (toLabel label) := by
  unfold toLabel
  split
  · next htop => rw [htop, if_neg hscope, atBoundary]
  · rfl

/-- A way to put together a valve that breaks to a label. A guarded break has its condition; what was said of its
target before the label was named does not matter. -/
inductive BreakMaker where
  | plain
  | whenHolds (condition : Condition) (target : BreakTarget)
  | unlessHolds (condition : Condition) (target : BreakTarget)

namespace BreakMaker

def make (label : String) : BreakMaker → Except ValidationError Valve
  | .plain => Valve.buildBreakToLabel label
  | .whenHolds condition target => Valve.buildBreakIf (some condition) (target.toLabel label)
  | .unlessHolds condition target => Valve.buildBreakUnless (some condition) (target.toLabel label)

def valve (signal : Signal) : BreakMaker → Valve
  | .plain => .breakWith signal
  | .whenHolds condition _ => .breakIf condition signal
  | .unlessHolds condition _ => .breakUnless condition signal

def Breaks (attributes : Attributes) : BreakMaker → Prop
  | .plain => True
  | .whenHolds condition _ => condition.holds attributes = true
  | .unlessHolds condition _ => condition.holds attributes = false

def asked (s : Session) : BreakMaker → Session
  | .plain => s
  | .whenHolds condition _ | .unlessHolds condition _ => (s.ask condition).2

theorem make_eq (m : BreakMaker) (label : String) :
    m.make label = if Text.trim label = "" then .error (.badLabel label)
      else .ok (m.valve (.toLabel label)) := by
  have build : m.make label = (labelSignal label).map m.valve := by
    cases m with
    | plain => rfl
    | whenHolds condition target =>
      show (labelSignal label).bind (fun signal => .ok (Valve.breakIf condition signal)) = _
      cases labelSignal label <;> rfl
    | unlessHolds condition target =>
      show (labelSignal label).bind (fun signal => .ok (Valve.breakUnless condition signal)) = _
      cases labelSignal label <;> rfl
  rw [build, labelSignal_eq]
  split <;> rfl

theorem run_valve (m : BreakMaker) (signal : Signal) (start : Starter) (steps : Nat) {s : Session}
    (h : m.Breaks s.attributes) : ((m.valve signal).work start steps).run s =
      .answered () ((m.asked s).requestBreak signal) := by
  cases m with
  | plain => rfl
  | whenHolds condition target =>
    have hanswer : (s.ask condition).1 = true := h
    simp only [valve, Valve.work, Run.run_bind, Run.run_act, hanswer]
    rfl
  | unlessHolds condition target =>
    have hanswer : (s.ask condition).1 = false := h
    simp only [valve, Valve.work, Run.run_bind, Run.run_act, hanswer]
    rfl

variable {m : BreakMaker} {label : String}

theorem make_eq_error_iff {e : ValidationError} :
    m.make label = .error e ↔ Text.AllBlank label.toList ∧ e = .badLabel label := by
  rw [m.make_eq, ← Text.trim_eq_empty_iff]
  split
  next hblank => simp [hblank, eq_comm]
  next hblank => simp [hblank]

theorem run_of_make {v : Valve} (hv : m.make label = .ok v) (start : Starter) (steps : Nat) {s : Session}
    (h : m.Breaks s.attributes) :
    (v.work start steps).run s = .answered () ((m.asked s).requestBreak (.toLabel label)) := by
  rw [m.make_eq] at hv
  split at hv
  · cases hv
  · obtain rfl := Except.ok.inj hv
    exact m.run_valve _ start steps h

end BreakMaker

namespace Pipeline

variable {label : String} {valves : List Valve} {p : Pipeline}

theorem label_of_build (h : build (some label) valves = .ok p) :
    p.label = some (Text.trim label) ∧ Text.trim label ≠ "" ∧ Text.trim label ≠ Signal.topLabel := by
  cases hchecked : checkLabel label with
  | error e =>
    rw [build_of_refused hchecked] at h
    cases h
  | ok name =>
    obtain ⟨rfl, hblank, htop⟩ := (checkLabel_eq_ok_iff label name).mp hchecked
    rw [build_of_checked hchecked] at h
    split at h
    · cases h
    · obtain rfl := Except.ok.inj h
      exact ⟨rfl, hblank, htop⟩

theorem trim_ne_of_build {other : String} (h : build (some label) valves = .ok p)
    (hspecial : Text.AllBlank other.toList ∨ Text.trim other = Signal.topLabel) :
    Text.trim label ≠ Text.trim other := by
  obtain ⟨-, hblank, htop⟩ := label_of_build h
  rw [← Text.trim_eq_empty_iff] at hspecial
  intro hsame
  rw [← hsame] at hspecial
  exact hspecial.elim hblank htop

theorem exists_build_iff (label : String) (valves : List Valve) :
    (∃ p, build (some label) valves = .ok p) ↔
      (Text.trim label ≠ "" ∧ Text.trim label ≠ Signal.topLabel) ∧
        ∀ v ∈ valves, ∀ c ∈ v.children, ∀ q, c.Nests q → q.label ≠ some (Text.trim label) := by
  have free : (∀ v ∈ valves, ∀ c ∈ v.children, ∀ q, c.Nests q → q.label ≠ some (Text.trim label)) ↔
      ¬(valves.any fun v => v.children.any (·.carries (Text.trim label))) = true := by
    rw [any_carries_iff]
    push Not
    rfl
  rw [free]
  constructor
  · rintro ⟨p, hp⟩
    obtain ⟨-, hblank, htop⟩ := label_of_build hp
    refine ⟨⟨hblank, htop⟩, fun hcarried => ?_⟩
    rw [build_of_checked (checkLabel_eq_ok label hblank htop), if_pos hcarried] at hp
    cases hp
  · rintro ⟨⟨hblank, htop⟩, hfree⟩
    rw [build_of_checked (checkLabel_eq_ok label hblank htop), if_neg hfree]
    exact ⟨_, rfl⟩

end Pipeline

/-- A boundary around a scope whose label passed the check settles a break to a label: it ends there when the
names are the same but for the blanks around them, and stays pending otherwise. -/
theorem Session.settle_toLabel {own label : String} (htop : Text.trim own ≠ Signal.topLabel) {s : Session}
    (h : s.pending = some (.toLabel label)) :
    (Text.trim own = Text.trim label → (s.settle (some (Text.trim own))).1 = .absorbed ∧
      (s.settle (some (Text.trim own))).2.pending = none) ∧
    (Text.trim own ≠ Text.trim label → (s.settle (some (Text.trim own))).1 = .propagated ∧
      (s.settle (some (Text.trim own))).2.pending = s.pending) := by
  have hscope : some (Text.trim own) ≠ some Signal.topLabel := fun heq => htop (Option.some.inj heq)
  have hdecision := Signal.atBoundary_toLabel label (some (Text.trim own)) hscope
  simp only [Option.some.injEq] at hdecision
  constructor
  · intro hsame
    rw [if_pos hsame] at hdecision
    rw [settle_of_absorb h hdecision]
    exact ⟨rfl, pending_absorbBreak ..⟩
  · intro hother
    rw [if_neg hother] at hdecision
    rw [settle_of_propagate h hdecision]
    exact ⟨rfl, h.symm⟩

namespace Walk

theorem run_runBoundary_of_answered {walk : Walker} {p : Pipeline} {s t : Session} {ended : WalkEnd}
    (h : (walk p).run s = .answered ended t) :
    (runBoundary walk p).run s = .answered (t.settle p.label).1 (t.settle p.label).2 := by
  simp only [runBoundary, Run.run_bind, h]
  rfl

theorem run_runBoundary_toLabel {own label : String} {valves : List Valve} {p : Pipeline}
    (hp : Pipeline.build (some own) valves = .ok p) {walk : Walker} {s t : Session} {ended : WalkEnd}
    (hwalked : (walk p).run s = .answered ended t) (hpending : t.pending = some (.toLabel label)) :
    ∃ settlement u, (runBoundary walk p).run s = .answered settlement u ∧
      (settlement = .absorbed ↔ Text.trim own = Text.trim label) ∧
      (settlement = .absorbed → u.pending = none) ∧
      (settlement ≠ .absorbed → settlement = .propagated ∧ u.pending = t.pending) := by
  obtain ⟨hlabel, -, htop⟩ := Pipeline.label_of_build hp
  have hrun := run_runBoundary_of_answered hwalked
  rw [hlabel] at hrun
  obtain ⟨absorbed, propagated⟩ := Session.settle_toLabel htop hpending
  refine ⟨_, _, hrun, ?_⟩
  by_cases hsame : Text.trim own = Text.trim label
  · obtain ⟨hsettled, hnone⟩ := absorbed hsame
    exact ⟨iff_of_true hsettled hsame, fun _ => hnone, fun hother => absurd hsettled hother⟩
  · obtain ⟨hsettled, hkept⟩ := propagated hsame
    have hother : (t.settle (some (Text.trim own))).1 ≠ .absorbed := by
      rw [hsettled]
      decide
    exact ⟨iff_of_false hother hsame, fun h => absurd h hother, fun _ => ⟨hsettled, hkept⟩⟩

end Walk

/-- Every way to name a label agrees. A valve that breaks to a label is refused just for a blank one, and
otherwise requests the signal that a script gets for the label, an exit just for the reserved one. A scope
is built with a label just if that is neither blank nor reserved nor declared below. A boundary around such
a scope ends a break to a label just if the two are the same but for the blanks around them, and leaves it
pending otherwise; so no label ends a break to a blank or reserved one. -/
theorem label_names_agree (label : String) :
    (∀ m : BreakMaker,
      (∀ e, m.make label = .error e ↔ Text.AllBlank label.toList ∧ e = .badLabel label) ∧
      ∀ v, m.make label = .ok v → ∀ (start : Starter) (steps : Nat) (s : Session), m.Breaks s.attributes →
        (v.work start steps).run s = .answered () ((m.asked s).requestBreak (.toLabel label))) ∧
    (∀ (start : Starter) (s : Session), ∃ answer, ((Call.breakToLabel label).perform start).run s =
      .answered answer (s.requestBreak (.toLabel label))) ∧
    (Signal.toLabel label = .exit ↔ Text.trim label = Signal.topLabel) ∧
    ∀ (own : String) (valves : List Valve),
      ((∃ p, Pipeline.build (some own) valves = .ok p) ↔
        (¬Text.AllBlank own.toList ∧ Text.trim own ≠ Signal.topLabel) ∧
          ∀ v ∈ valves, ∀ c ∈ v.children, ∀ q, c.Nests q → q.label ≠ some (Text.trim own)) ∧
      ∀ p, Pipeline.build (some own) valves = .ok p →
        ∀ (walk : Walker) (s t : Session) (ended : WalkEnd), (walk p).run s = .answered ended t →
          t.pending = some (.toLabel label) →
          ∃ settlement u, (Walk.runBoundary walk p).run s = .answered settlement u ∧
            (settlement = .absorbed ↔ Text.trim own = Text.trim label) ∧
            (settlement = .absorbed → u.pending = none) ∧
            (settlement ≠ .absorbed → settlement = .propagated ∧ u.pending = t.pending) ∧
            (Text.AllBlank label.toList ∨ Text.trim label = Signal.topLabel → settlement ≠ .absorbed) := by
  refine ⟨fun m => ⟨fun e => BreakMaker.make_eq_error_iff, ?_⟩, fun start s => ⟨_, rfl⟩,
    Signal.toLabel_eq_exit_iff label, fun own valves => ⟨?_, ?_⟩⟩
  · intro v hv start steps s hbreaks
    exact BreakMaker.run_of_make hv start steps hbreaks
  · rw [← Text.trim_eq_empty_iff]
    exact Pipeline.exists_build_iff own valves
  · intro p hp walk s t ended hwalked hpending
    obtain ⟨settlement, u, hrun, habsorbed, hended, hkept⟩ :=
      Walk.run_runBoundary_toLabel hp hwalked hpending
    refine ⟨settlement, u, hrun, habsorbed, hended, hkept, fun hspecial h => ?_⟩
    exact Pipeline.trim_ne_of_build hp hspecial (habsorbed.mp h)

private def paddedBreak : BreakMaker :=
  .whenHolds (.constant true) { count := 2 }

private def paddedScope : Pipeline :=
  ⟨some "scope", [.breakIf (.constant true) (.label "scope")]⟩

private def paddedSession : Session :=
  .start paddedScope .collect {}

private def leavesExit : Walker := fun _ => do
  Run.update (·.requestBreak .exit)
  return .unwound

theorem label_names_agree_of_padded :
    (∃ v, paddedBreak.make " scope\u2003" = .ok v ∧ Pipeline.build (some "\tscope") [v] = .ok paddedScope ∧
      (v.work (Valve.run 1) 1).run paddedSession =
        .answered () ((paddedSession.ask (.constant true)).2.requestBreak (.label "scope"))) ∧
    (∃ s, (Walk.runBoundary (Walk.runPipeline (Valve.run 2)) paddedScope).run paddedSession =
      .answered .absorbed s) ∧
    (∃ s, (Walk.runBoundary leavesExit paddedScope).run paddedSession = .answered .propagated s) ∧
    paddedBreak.make "\u2003\t" = .error (.badLabel "\u2003\t") := by
  have hmake : paddedBreak.make " scope\u2003" = .ok (.breakIf (.constant true) (.label "scope")) := rfl
  have hbuild : Pipeline.build (some "\tscope") [.breakIf (.constant true) (.label "scope")] =
      .ok paddedScope := rfl
  obtain ⟨makers, -, -, scopes⟩ := label_names_agree " scope\u2003"
  obtain ⟨-, -, -, scopesOfTop⟩ := label_names_agree " #TOP"
  refine ⟨⟨_, hmake, hbuild, ?_⟩, ?_, ?_, ?_⟩
  · exact (makers paddedBreak).2 _ hmake (Valve.run 1) 1 paddedSession rfl
  · have hwalk : (Walk.runPipeline (Valve.run 2) paddedScope).run paddedSession = .answered .unwound
        ((Walk.runPipeline (Valve.run 2) paddedScope).run paddedSession).session := rfl
    obtain ⟨settlement, s, hrun, habsorbed, -⟩ :=
      (scopes "\tscope" _).2 paddedScope hbuild _ _ _ _ hwalk rfl
    rw [habsorbed.mpr rfl] at hrun
    exact ⟨s, hrun⟩
  · have hwalk : (leavesExit paddedScope).run paddedSession =
        .answered .unwound (paddedSession.requestBreak .exit) := rfl
    obtain ⟨settlement, s, hrun, -, -, hkept, hspecial⟩ :=
      (scopesOfTop "\tscope" _).2 paddedScope hbuild _ _ _ _ hwalk rfl
    rw [(hkept (hspecial (.inr rfl))).1] at hrun
    exact ⟨s, hrun⟩
  · exact (((label_names_agree "\u2003\t").1 paddedBreak).1 _).mpr ⟨by decide, rfl⟩

end ValvePipeline
