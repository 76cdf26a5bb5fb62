import ValvePipeline.Proofs.VariedRuns

/-!
Loop bounds. The bound of a loop is looked at after the condition and before anything changes, and only
against the loop's own count. So a run in which no loop came to its bound does not depend on the bounds:
with larger ones, or none, it is the same.
-/

set_option autoImplicit false
set_option relaxedAutoImplicit false

namespace ValvePipeline

def LoopConfig.Loosens (c d : LoopConfig) : Prop :=
  0 < c.bound ∧ d.counter = c.counter ∧ (c.bound < d.bound ∨ d.bound ≤ 0)

/-- The loops of the second run may have looser bounds, which their events show. Nothing is compared any
more after a loop of the first run has come to its bound. -/
def Variation.loosening : Variation where
  signals _ a b := b = a
  loops c d := d = c ∨ c.Loosens d
  hidden type := if type = "loop.iteration" then ["max_loop_count"] else []
  excused failure := ∃ bound, failure = .tooManyLoops bound

def Mark.exceedsBound : Mark → Bool
  | .leaveValve _ (some (.tooManyLoops _)) => true
  | _ => false

theorem LoopConfig.Loosens.isSpent {c d : LoopConfig} (h : c.Loosens d) {count : Nat}
    (hspent : Loop.isSpent d count = true) : Loop.isSpent c count = true := by
  obtain ⟨hpos, -, hbound⟩ := h
  simp only [Loop.isSpent, LoopConfig.isBounded, Bool.and_eq_true, decide_eq_true_eq] at hspent ⊢
  obtain ⟨hd, hcount⟩ := hspent
  constructor
  · exact hpos
  · omega

theorem Variation.loosening_lawful : loosening.Lawful where
  exit _ := rfl
  boundary {label scopes a b} h := by
    obtain rfl : b = a := h
    cases hb : b.atBoundary label with
    | absorb => exact .inl ⟨rfl, rfl⟩
    | propagate next => exact .inr ⟨next, next, rfl, rfl, rfl⟩
  lost {scopes a b} h := by
    obtain rfl : b = a := h
    rfl
  shown h := .inl h
  counter {c d} h := by
    rcases h with rfl | hlooser
    · rfl
    · exact hlooser.2.1
  bound {c d} h := by
    rcases h with rfl | _
    · exact .inl rfl
    · exact .inr (by simp [loosening])
  spent {c d} h := by
    rcases h with rfl | hlooser
    · exact .inl rfl
    · refine .inr ⟨⟨c.bound, rfl⟩, ?_⟩
      intro count hspent
      exact hlooser.isSpent hspent

/-- Two sessions that show the same: the journal, the attributes, the pending signal, every mark of the
trail, so also what was asked and answered, and the events but for the bounds of loops. -/
structure Session.ShowsSame (s t : Session) : Prop where
  journal : t.transcript.journal = s.transcript.journal
  attributes : t.attributes = s.attributes
  pending : t.pending = s.pending
  marks : t.trail.map (·.mark) = s.trail.map (·.mark)
  events : t.seen Variation.loosening.hidden = s.seen Variation.loosening.hidden
  logged : t.logged = s.logged

theorem Mark.Varies.eq_of_loosening {scopes : List (Option String)} {m n : Mark}
    (h : Mark.Varies .loosening scopes m n) : n = m := by
  cases h with
  | same _ => rfl
  | request hsame => exact congrArg Mark.request hsame

theorem marks_eq_of_loosening {a b : List Moment}
    (h : List.Forall₂ (Moment.Varies .loosening) a b) : b.map (·.mark) = a.map (·.mark) := by
  induction h with
  | nil => rfl
  | cons hmoment _ ih =>
    rw [List.map_cons, List.map_cons, hmoment.mark.eq_of_loosening, ih]

theorem Walk.ReportAlike.eq_of_loosening {label : Option String}
    {a b : Except RunFailure Outcome} (h : ReportAlike .loosening label a b) : b = a := by
  cases h with
  | failure e => rfl
  | completed => rfl
  | unwound hsame =>
    obtain rfl := hsame
    rfl

theorem Walk.LeftAlike.showsSame {label : Option String} {a b : Except RunFailure Outcome}
    {s t : Session} (h : LeftAlike .loosening label a b s t) : s.ShowsSame t where
  journal := h.journal
  attributes := h.attributes
  pending := by
    have hsignals := h.signals
    generalize s.pending = a, t.pending = b at hsignals ⊢
    cases hsignals with
    | none => rfl
    | some hsame => exact congrArg some hsame
  marks := marks_eq_of_loosening h.trail
  events := h.events
  logged := h.logged

/-- Loop bounds matter only when they are exceeded. Take two pipelines of built-in valves that differ only
in that some bounded loops of the first one have a larger bound in the second one, or none. If the run
of the first one ends, and nowhere in it a loop has failed for its bound, then the run of the second one
ends, too, with the same result, and shows the same. -/
theorem Pipeline.bounds_loosened {p q : Pipeline} (h : p.Varies .loosening [] q) (sink : Sink)
    (identity : Identity) (attributes : Attributes) (steps : Nat)
    {result : Except RunFailure Outcome} {s : Session}
    (hrun : { Session.start p sink identity with attributes }.invoke steps = .answered result s)
    (hfine : ∀ m ∈ s.trail, m.mark.exceedsBound = false) :
    ∃ t, { Session.start q sink identity with attributes }.invoke steps = .answered result t ∧
      s.ShowsSame t := by
  have hfresh := Session.Fresh.start h sink identity attributes
  have hbeside := Walk.invoke_beside Variation.loosening_lawful hfresh steps
  rw [hrun] at hbeside
  generalize { Session.start q sink identity with attributes }.invoke steps = ending
    at hbeside ⊢
  cases hbeside with
  | @answered _ other _ t hleft =>
    obtain rfl : other = result := hleft.report.eq_of_loosening
    exact ⟨t, rfl, hleft.showsSame⟩
  | strayed hstrayed =>
    obtain ⟨m, hm, i, failure, hmark, bound, rfl⟩ := hstrayed
    have hexceeds : m.mark.exceedsBound = true := by rw [hmark, Mark.exceedsBound]
    rw [hfine m hm] at hexceeds
    cases hexceeds

private def stoppingBody : Pipeline :=
  ⟨none, [.setAttribute "done" (.bool true)]⟩

private def stoppingLoop (bound : Int) : Pipeline :=
  ⟨none, [.whileLoop (.not (.isSet "done")) stoppingBody { bound, counter := "i" }]⟩

private theorem stoppingLoop_varies : (stoppingLoop 1).Varies .loosening [] (stoppingLoop 0) := by
  have body : stoppingBody.Varies .loosening [none] stoppingBody := by
    refine .intro rfl rfl fun pair hpair => ?_
    obtain rfl : pair = _ := List.mem_singleton.mp hpair
    exact .plain rfl
  refine .intro rfl rfl fun pair hpair => ?_
  obtain rfl : pair = _ := List.mem_singleton.mp hpair
  exact .whileLoop body (.inr ⟨by decide, rfl, .inr (by decide)⟩)

private def stoppingRun : Ending Empty (Except RunFailure Outcome) :=
  (Session.start (stoppingLoop 1) .collect {}).invoke 4

private theorem stoppingRun_fine : ∀ m ∈ stoppingRun.session.trail, m.mark.exceedsBound = false := by
  have checked : stoppingRun.session.trail.all (fun m => !m.mark.exceedsBound) = true := rfl
  intro m hm
  simpa using List.all_eq_true.mp checked m hm

theorem Pipeline.bounds_loosened_of_stoppingLoop :
    stoppingRun = .answered (.ok .completed) stoppingRun.session ∧
      (∀ m ∈ stoppingRun.session.trail, m.mark.exceedsBound = false) ∧
      ∃ t, (Session.start (stoppingLoop 0) .collect {}).invoke 4 = .answered (.ok .completed) t ∧
        stoppingRun.session.ShowsSame t := by
  have ended : stoppingRun = .answered (.ok .completed) stoppingRun.session := rfl
  have same := bounds_loosened stoppingLoop_varies .collect {} {} 4 ended stoppingRun_fine
  exact ⟨ended, stoppingRun_fine, same⟩

end ValvePipeline
