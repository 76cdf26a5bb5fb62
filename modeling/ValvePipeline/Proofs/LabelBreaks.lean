import ValvePipeline.Proofs.VariedRuns

/-!
Label breaks as level breaks. A break to the label of an enclosing pipeline may be written as one that
counts the pipelines inside of it: both stop at the same boundary, however many loops, choices and guarded
blocks lie between. The run with counts goes along with the run with labels and shows other signals, but
nothing else.
-/

set_option autoImplicit false
set_option relaxedAutoImplicit false

namespace ValvePipeline

/-- The signal with counts in place of labels, requested inside of scopes with these labels, innermost
first. A label that no scope carries stays. -/
def Signal.counted (scopes : List (Option String)) : Signal → Signal
  | .label name =>
    match scopes.findIdx? (· == some name) with
    | some count => .level count
    | none => .label name
  | signal => signal

mutual

/-- The pipeline with counts in place of the labels that it or a pipeline around it carries. The labels of
the pipelines around it are given, innermost first. -/
def Pipeline.counted (outer : List (Option String)) : Pipeline → Pipeline
  | ⟨label, valves⟩ => ⟨label, Valve.countedAll (label :: outer) valves⟩

def Valve.countedAll (scopes : List (Option String)) : List Valve → List Valve
  | [] => []
  | valve :: valves => valve.counted scopes :: Valve.countedAll scopes valves

def Valve.counted (scopes : List (Option String)) : Valve → Valve
  | .breakWith signal => .breakWith (signal.counted scopes)
  | .breakIf condition signal => .breakIf condition (signal.counted scopes)
  | .breakUnless condition signal => .breakUnless condition (signal.counted scopes)
  | .loop body config => .loop (body.counted scopes) config
  | .whileLoop condition body config => .whileLoop condition (body.counted scopes) config
  | .ifThen condition block => .ifThen condition (block.counted scopes)
  | .choose branches otherwise =>
    .choose (Branch.countedAll scopes branches) (Pipeline.counted? scopes otherwise)
  | .sub pipeline => .sub (pipeline.counted scopes)
  | .guarded tryBlock catchBlock finallyBlock config =>
    .guarded (Pipeline.counted? scopes tryBlock) (Pipeline.counted? scopes catchBlock)
      (Pipeline.counted? scopes finallyBlock) config
  | valve => valve

def Branch.countedAll (scopes : List (Option String)) : List Branch → List Branch
  | [] => []
  | ⟨condition, block⟩ :: branches =>
    ⟨condition, block.counted scopes⟩ :: Branch.countedAll scopes branches

def Pipeline.counted? (scopes : List (Option String)) : Option Pipeline → Option Pipeline
  | none => none
  | some pipeline => some (pipeline.counted scopes)

end

def Variation.counting : Variation where
  signals scopes a b := b = a.counted scopes
  loops c d := d = c
  hidden type := if type ∈ Signal.eventTypes then ["signal", "next"] else []
  excused _ := False

namespace Signal

variable {label : Option String} {scopes : List (Option String)} {name : String}

theorem counted_of_carried (h : label = some name) :
    (Signal.label name).counted (label :: scopes) = .level 0 := by
  simp [counted, List.findIdx?_cons, h]

theorem atBoundary_counted (signal : Signal) (label : Option String)
    (scopes : List (Option String)) :
    (signal.counted (label :: scopes)).atBoundary label =
      match signal.atBoundary label with
      | .absorb => .absorb
      | .propagate next => .propagate (next.counted scopes) := by
  cases signal with
  | level count => cases count <;> rfl
  | exit => rfl
  | label name =>
    by_cases hlabel : label = some name
    · simp [counted, List.findIdx?_cons, atBoundary, hlabel]
    · have hskip : (label :: scopes).findIdx? (· == some name) =
          (scopes.findIdx? (· == some name)).map (· + 1) := by
        simp [List.findIdx?_cons, hlabel]
      cases hfind : scopes.findIdx? (· == some name) with
      | none => simp [counted, hskip, hfind, atBoundary, hlabel]
      | some count => simp [counted, hskip, hfind, atBoundary, hlabel]

theorem isLost_counted (signal : Signal) (scopes : List (Option String)) :
    (signal.counted scopes).isLost scopes = signal.isLost scopes := by
  cases signal with
  | level count => rfl
  | exit => rfl
  | label name =>
    cases hfind : scopes.findIdx? (· == some name) with
    | none => simp [counted, hfind]
    | some count => simp [counted, isLost, hfind]

end Signal

theorem Variation.counting_lawful : counting.Lawful where
  exit _ := rfl
  boundary {label scopes a b} h := by
    obtain rfl : b = a.counted (label :: scopes) := h
    have hcounted := a.atBoundary_counted label scopes
    cases ha : a.atBoundary label with
    | absorb => exact .inl ⟨rfl, by rw [hcounted, ha]⟩
    | propagate next => exact .inr ⟨next, _, rfl, by rw [hcounted, ha], rfl⟩
  lost {scopes a b} h := by
    obtain rfl : b = a.counted scopes := h
    exact a.isLost_counted scopes
  shown _ := by
    refine .inr fun type htype => ?_
    simp [counting, htype]
  counter h := congrArg LoopConfig.counter h
  bound h := .inl h
  spent h := .inl h

namespace Valve.BuiltIn

theorem branch {branches : List Branch} {otherwise : Option Pipeline}
    (h : (Valve.choose branches otherwise).BuiltIn) {b : Branch} (hb : b ∈ branches) :
    b.block.BuiltIn :=
  h.child (List.mem_append_left _ (List.mem_map_of_mem hb))

theorem otherwise {branches : List Branch} {last : Option Pipeline}
    (h : (Valve.choose branches last).BuiltIn) {p : Pipeline} (hp : p ∈ last) : p.BuiltIn :=
  h.child (List.mem_append_right _ (Option.mem_toList.mpr hp))

theorem guarded {tryBlock catchBlock finallyBlock : Option Pipeline} {config : CatchConfig}
    (h : (Valve.guarded tryBlock catchBlock finallyBlock config).BuiltIn) {p : Pipeline}
    (hp : p ∈ tryBlock ∨ p ∈ catchBlock ∨ p ∈ finallyBlock) : p.BuiltIn := by
  have hchild : p ∈ tryBlock.toList ++ catchBlock.toList ++ finallyBlock.toList := by
    simp only [List.mem_append, Option.mem_toList]
    rcases hp with hp | hp | hp
    · exact .inl (.inl hp)
    · exact .inl (.inr hp)
    · exact .inr hp
  exact h.child hchild

end Valve.BuiltIn

mutual

theorem Pipeline.counted_varies (outer : List (Option String)) : ∀ p : Pipeline, p.BuiltIn →
    p.Varies .counting outer (p.counted outer)
  | ⟨label, valves⟩, h => by
    cases h with
    | intro hvalves =>
      have hall := Valve.countedAll_varies (label :: outer) valves hvalves
      exact .intro rfl hall.1 hall.2

theorem Valve.countedAll_varies (scopes : List (Option String)) : ∀ valves : List Valve,
    (∀ v ∈ valves, v.BuiltIn) →
    (Valve.countedAll scopes valves).length = valves.length ∧
      ∀ pair ∈ valves.zip (Valve.countedAll scopes valves),
        pair.1.Varies .counting scopes pair.2
  | [], _ => ⟨rfl, nofun⟩
  | valve :: valves, h => by
    have hvalve := Valve.counted_varies scopes valve (h valve List.mem_cons_self)
    have hrest := Valve.countedAll_varies scopes valves fun v hv => h v (List.mem_cons_of_mem _ hv)
    refine ⟨congrArg (· + 1) hrest.1, fun pair hpair => ?_⟩
    rcases List.mem_cons.mp hpair with rfl | hpair
    · exact hvalve
    · exact hrest.2 pair hpair

theorem Valve.counted_varies (scopes : List (Option String)) : ∀ v : Valve, v.BuiltIn →
    v.Varies .counting scopes (v.counted scopes)
  | .passThrough, _ => .plain rfl
  | .setAttribute _ _, _ => .plain rfl
  | .log _ _, _ => .plain rfl
  | .record _ _, _ => .plain rfl
  | .failing _ _, _ => .plain rfl
  | .scripted name script, h => by
    cases h with
    | intro hscript => exact absurd rfl (hscript name script)
  | .breakWith _, _ => .breakWith rfl
  | .exit, _ => .plain rfl
  | .breakIf _ _, _ => .breakIf rfl
  | .breakUnless _ _, _ => .breakUnless rfl
  | .loop body _, h =>
    .loop (Pipeline.counted_varies scopes body (h.child List.mem_cons_self)) rfl
  | .whileLoop _ body _, h =>
    .whileLoop (Pipeline.counted_varies scopes body (h.child List.mem_cons_self)) rfl
  | .ifThen _ block, h =>
    .ifThen (Pipeline.counted_varies scopes block (h.child List.mem_cons_self))
  | .choose branches otherwise, h => by
    have hbranches := Branch.countedAll_varies scopes branches fun _ hb => h.branch hb
    have hlast := Pipeline.counted?_varies scopes otherwise fun _ hp => h.otherwise hp
    exact .choose hbranches.1 hbranches.2 hlast.1 hlast.2
  | .sub pipeline, h =>
    .sub (Pipeline.counted_varies scopes pipeline (h.child List.mem_cons_self))
  | .guarded tryBlock catchBlock finallyBlock _, h => by
    have htry := Pipeline.counted?_varies scopes tryBlock fun _ hp => h.guarded (.inl hp)
    have hcatch := Pipeline.counted?_varies scopes catchBlock fun _ hp =>
      h.guarded (.inr (.inl hp))
    have hlast := Pipeline.counted?_varies scopes finallyBlock fun _ hp =>
      h.guarded (.inr (.inr hp))
    exact .guarded htry.1 htry.2 hcatch.1 hcatch.2 hlast.1 hlast.2

theorem Branch.countedAll_varies (scopes : List (Option String)) : ∀ branches : List Branch,
    (∀ b ∈ branches, b.block.BuiltIn) →
    (Branch.countedAll scopes branches).map (·.condition) = branches.map (·.condition) ∧
      ∀ pair ∈ branches.zip (Branch.countedAll scopes branches),
        pair.1.block.Varies .counting scopes pair.2.block
  | [], _ => ⟨rfl, nofun⟩
  | ⟨condition, block⟩ :: branches, h => by
    have hblock := Pipeline.counted_varies scopes block (h _ List.mem_cons_self)
    have hrest := Branch.countedAll_varies scopes branches fun b hb =>
      h b (List.mem_cons_of_mem _ hb)
    refine ⟨congrArg (condition :: ·) hrest.1, fun pair hpair => ?_⟩
    rcases List.mem_cons.mp hpair with rfl | hpair
    · exact hblock
    · exact hrest.2 pair hpair

theorem Pipeline.counted?_varies (scopes : List (Option String)) : ∀ block : Option Pipeline,
    (∀ p ∈ block, p.BuiltIn) →
    (Pipeline.counted? scopes block).isSome = block.isSome ∧
      ∀ p ∈ block, ∀ q ∈ Pipeline.counted? scopes block, p.Varies .counting scopes q
  | none, _ => ⟨rfl, nofun⟩
  | some pipeline, h => by
    have hvaries := Pipeline.counted_varies scopes pipeline (h pipeline rfl)
    refine ⟨rfl, fun p hp q hq => ?_⟩
    obtain rfl := Option.some.inj hp
    obtain rfl := Option.some.inj hq
    exact hvaries

end

def Moment.findLabel (m : Moment) (label : String) : Option Nat :=
  Session.findLabel { pipeline := .empty, frames := m.frames } label

/-- The same moment of both runs. A request of a label is one of the count that a search for the label
reports then, if it finds the label; every other mark is the same. -/
structure Moment.Recounted (m n : Moment) : Prop where
  walks : Frames.Varies .counting m.frames n.frames
  request {name : String} : m.mark = .request (.label name) →
    n.mark = .request (((m.findLabel name).map .level).getD (.label name))
  same : (∀ name, m.mark ≠ .request (.label name)) → n.mark = m.mark

/-- The results of both runs. A break to the label of the whole pipeline is one to its boundary; every
other result is the same. -/
structure Retold (label : Option String) (a b : Except RunFailure Outcome) : Prop where
  own {name : String} : label = some name → a = .ok (.unwound (.label name)) →
    b = .ok (.unwound (.level 0))
  same : (∀ name, label = some name → a ≠ .ok (.unwound (.label name))) → b = a

structure Session.Recounted (s t : Session) : Prop where
  journal : t.transcript.journal = s.transcript.journal
  attributes : t.attributes = s.attributes
  events : t.seen Variation.counting.hidden = s.seen Variation.counting.hidden
  logged : t.logged = s.logged
  trail : List.Forall₂ Moment.Recounted s.trail t.trail

inductive Ending.Recounted (label : Option String) :
    Ending Empty (Except RunFailure Outcome) → Ending Empty (Except RunFailure Outcome) → Prop
  | answered {a b : Except RunFailure Outcome} {s t : Session} : Retold label a b →
    s.Recounted t → Recounted label (.answered a s) (.answered b t)
  | exhausted {s t : Session} : s.Recounted t → Recounted label (.exhausted s) (.exhausted t)

theorem Moment.Recounted.of_varies {m n : Moment} (h : m.Varies .counting n) : m.Recounted n := by
  have hfind (name : String) : m.findLabel name = (labels m.frames).findIdx? (· == some name) := by
    rw [labels, List.findIdx?_map]
    rfl
  constructor
  · exact h.frames
  · intro name hname
    have hmark := h.mark
    rw [hname] at hmark
    rw [hfind]
    generalize n.mark = mark at hmark ⊢
    cases hmark with
    | same hsame => cases hsame
    | request hcounted =>
      obtain rfl := hcounted
      rw [Signal.counted]
      cases (labels m.frames).findIdx? (· == some name) <;> rfl
  · intro hname
    have hmark := h.mark
    generalize m.mark = mark, n.mark = mark' at hmark hname ⊢
    cases hmark with
    | same _ => rfl
    | @request a _ hcounted =>
      obtain rfl := hcounted
      cases a with
      | label name => exact absurd rfl (hname name)
      | level count => rfl
      | exit => rfl

theorem Session.Beside.recounted {scopes : List (Option String)} {s t : Session}
    (h : s.Beside .counting scopes t) : s.Recounted t where
  journal := h.journal
  attributes := h.attributes
  events := h.events
  logged := h.logged
  trail := h.trail.imp fun _ _ hvaries => .of_varies hvaries

theorem Retold.of_reportAlike {label : Option String} {a b : Except RunFailure Outcome}
    (h : Walk.ReportAlike .counting label a b) : Retold label a b := by
  cases h with
  | failure e => exact ⟨nofun, fun _ => rfl⟩
  | completed => exact ⟨nofun, fun _ => rfl⟩
  | @unwound signal other hcounted =>
    obtain rfl : other = signal.counted [label] := hcounted
    constructor
    · intro name hlabel hown
      obtain rfl := Outcome.unwound.inj (Except.ok.inj hown)
      rw [Signal.counted_of_carried hlabel]
    · intro hother
      cases signal with
      | level count => rfl
      | exit => rfl
      | label name =>
        have hlabel : label ≠ some name := fun hlabel => hother name hlabel rfl
        simp [Signal.counted, List.findIdx?_cons, hlabel]

theorem Ending.Beside.recounted {label : Option String} {scopes : List (Option String)}
    {ending ending' : Ending Empty (Except RunFailure Outcome)}
    (h : ending.Beside .counting (fun _ => False) scopes (Walk.LeftAlike .counting label) ending') :
    ending.Recounted label ending' := by
  cases h with
  | answered h =>
    have hretold := Retold.of_reportAlike h.report
    have hsessions := h.toBeside.recounted
    exact .answered hretold hsessions
  | @raised e => exact e.elim
  | exhausted h => exact .exhausted h.recounted
  | failed hexcused => exact hexcused.elim
  | strayed hstrayed =>
    obtain ⟨_, _, _, _, _, hexcused⟩ := hstrayed
    exact hexcused.elim

/-- A break to a label is a break that counts. Replace, in a pipeline of built-in valves, every break to
the label of an enclosing pipeline by one that counts the pipelines inside of it: from the same
attributes both runs give the same journal, attributes and log, start the same valves with the same
failures, report the same events but for the signals that they show, and have the same result but for a
break to the label of the whole pipeline. A break asks for the count that a search for its label
reports at that moment. -/
theorem Pipeline.breaks_counted {p : Pipeline} (hbuilt : p.BuiltIn) (sink : Sink)
    (identity : Identity) (attributes : Attributes) (steps : Nat) :
    ({ Session.start p sink identity with attributes }.invoke steps).Recounted p.label
      ({ Session.start (p.counted []) sink identity with attributes }.invoke steps) := by
  have hvaries : p.Varies .counting [] (p.counted []) := Pipeline.counted_varies [] p hbuilt
  have hfresh := Session.Fresh.start hvaries sink identity attributes
  have hbeside := Walk.invoke_beside Variation.counting_lawful hfresh steps
  exact hbeside.recounted

private def namingScope : Pipeline :=
  ⟨none, [.breakWith (.label "whole"), .passThrough]⟩

private def namingPipeline : Pipeline :=
  ⟨some "whole", [.sub namingScope, .passThrough]⟩

private theorem namingPipeline_builtIn : namingPipeline.BuiltIn := by
  have pass : Valve.BuiltIn .passThrough := by
    refine .of_leaf (fun name script h => ?_) rfl
    cases h
  have scope : namingScope.BuiltIn := by
    refine .intro fun v hv => ?_
    rcases List.mem_cons.mp hv with rfl | hv
    · refine .of_leaf (fun name script h => ?_) rfl
      cases h
    · obtain rfl := List.mem_singleton.mp hv
      exact pass
  have inner : Valve.BuiltIn (.sub namingScope) := by
    refine .intro (fun name script h => ?_) fun p hp => ?_
    · cases h
    · obtain rfl : p = namingScope := List.mem_singleton.mp hp
      exact scope
  refine .intro fun v hv => ?_
  rcases List.mem_cons.mp hv with rfl | hv
  · exact inner
  · obtain rfl := List.mem_singleton.mp hv
    exact pass

theorem Pipeline.breaks_counted_of_namingPipeline :
    namingPipeline.counted [] =
      ⟨some "whole", [.sub ⟨none, [.breakWith (.level 1), .passThrough]⟩, .passThrough]⟩ ∧
    ((Session.start namingPipeline .collect {}).invoke 5).Recounted (some "whole")
      ((Session.start (namingPipeline.counted []) .collect {}).invoke 5) ∧
    (∃ t, (Session.start namingPipeline .collect {}).invoke 5 =
      .answered (.ok (.unwound (.label "whole"))) t) ∧
    ∃ t, (Session.start (namingPipeline.counted []) .collect {}).invoke 5 =
      .answered (.ok (.unwound (.level 0))) t :=
  ⟨rfl, breaks_counted namingPipeline_builtIn .collect {} {} 5, ⟨_, rfl⟩, ⟨_, rfl⟩⟩

end ValvePipeline
