import Mathlib.Data.List.Forall2
import ValvePipeline.Proofs.Companions
import ValvePipeline.Proofs.Nesting
import ValvePipeline.Proofs.UnwindingBlocks

/-!
Variations of a pipeline. Two pipelines that differ in some signals or loop bounds have the same shape,
and so have the walks of their runs. This module says what may differ, in the pipelines and in the
sessions of the two runs, and that single changes keep the two sessions beside each other.
-/

set_option autoImplicit false
set_option relaxedAutoImplicit false

namespace ValvePipeline

/-- What may differ between two runs. -/
structure Variation where
  /-- The signals that stand for each other inside of scopes with these labels, innermost first. -/
  signals : List (Option String) → Signal → Signal → Prop
  loops : LoopConfig → LoopConfig → Prop
  /-- The fields of the events of a type whose values are not compared. -/
  hidden : String → List String
  /-- The failures of a valve of the first run after which nothing is compared any more. -/
  excused : ValveFailure → Prop

/-- The label of a signal is carried by none of the scopes. -/
def Signal.isLost (scopes : List (Option String)) : Signal → Bool
  | .label name => (scopes.findIdx? (· == some name)).isNone
  | _ => false

def Signal.eventTypes : List String :=
  ["boundary.absorbed", "boundary.propagated", "invocation.unwound"]

namespace Variation

structure Lawful (x : Variation) : Prop where
  exit (scopes : List (Option String)) : x.signals scopes .exit .exit
  /-- A boundary absorbs both signals, or passes on two that stand for each other outside of it. -/
  boundary {label : Option String} {scopes : List (Option String)} {a b : Signal} :
    x.signals (label :: scopes) a b →
      (a.atBoundary label = .absorb ∧ b.atBoundary label = .absorb) ∨
        ∃ a' b', a.atBoundary label = .propagate a' ∧ b.atBoundary label = .propagate b' ∧
          x.signals scopes a' b'
  lost {scopes : List (Option String)} {a b : Signal} : x.signals scopes a b →
    b.isLost scopes = a.isLost scopes
  shown {scopes : List (Option String)} {a b : Signal} : x.signals scopes a b → b = a ∨
    ∀ type ∈ Signal.eventTypes, "signal" ∈ x.hidden type ∧ "next" ∈ x.hidden type
  counter {c d : LoopConfig} : x.loops c d → d.counter = c.counter
  bound {c d : LoopConfig} : x.loops c d → d = c ∨ "max_loop_count" ∈ x.hidden "loop.iteration"
  /-- The second loop comes to its bound no sooner than the first one, whose failure is excused. -/
  spent {c d : LoopConfig} : x.loops c d → d = c ∨ (x.excused (.tooManyLoops c.bound) ∧
    ∀ count, Loop.isSpent d count = true → Loop.isSpent c count = true)

end Variation

def Valve.isPlain : Valve → Bool
  | .passThrough | .setAttribute _ _ | .log _ _ | .record _ _ | .failing _ _ | .exit => true
  | _ => false

mutual

/-- The pipelines differ in what the variation admits, inside of scopes with the given labels. -/
inductive Pipeline.Varies (x : Variation) : List (Option String) → Pipeline → Pipeline → Prop
  | intro {outer : List (Option String)} {p q : Pipeline} : q.label = p.label →
    q.valves.length = p.valves.length →
    (∀ pair ∈ p.valves.zip q.valves, Valve.Varies x (p.label :: outer) pair.1 pair.2) →
    Pipeline.Varies x outer p q

inductive Valve.Varies (x : Variation) : List (Option String) → Valve → Valve → Prop
  | plain {scopes : List (Option String)} {v : Valve} : v.isPlain = true → Valve.Varies x scopes v v
  | breakWith {scopes : List (Option String)} {a b : Signal} : x.signals scopes a b →
    Valve.Varies x scopes (.breakWith a) (.breakWith b)
  | breakIf {scopes : List (Option String)} {condition : Condition} {a b : Signal} :
    x.signals scopes a b → Valve.Varies x scopes (.breakIf condition a) (.breakIf condition b)
  | breakUnless {scopes : List (Option String)} {condition : Condition} {a b : Signal} :
    x.signals scopes a b →
    Valve.Varies x scopes (.breakUnless condition a) (.breakUnless condition b)
  | loop {scopes : List (Option String)} {p q : Pipeline} {c d : LoopConfig} :
    Pipeline.Varies x scopes p q → x.loops c d → Valve.Varies x scopes (.loop p c) (.loop q d)
  | whileLoop {scopes : List (Option String)} {condition : Condition} {p q : Pipeline}
    {c d : LoopConfig} : Pipeline.Varies x scopes p q → x.loops c d →
    Valve.Varies x scopes (.whileLoop condition p c) (.whileLoop condition q d)
  | ifThen {scopes : List (Option String)} {condition : Condition} {p q : Pipeline} :
    Pipeline.Varies x scopes p q →
    Valve.Varies x scopes (.ifThen condition p) (.ifThen condition q)
  | choose {scopes : List (Option String)} {bs cs : List Branch} {last other : Option Pipeline} :
    cs.map (·.condition) = bs.map (·.condition) →
    (∀ pair ∈ bs.zip cs, Pipeline.Varies x scopes pair.1.block pair.2.block) →
    other.isSome = last.isSome → (∀ p ∈ last, ∀ q ∈ other, Pipeline.Varies x scopes p q) →
    Valve.Varies x scopes (.choose bs last) (.choose cs other)
  | sub {scopes : List (Option String)} {p q : Pipeline} : Pipeline.Varies x scopes p q →
    Valve.Varies x scopes (.sub p) (.sub q)
  | guarded {scopes : List (Option String)}
    {tryBlock tryOther catchBlock catchOther finallyBlock finallyOther : Option Pipeline}
    {config : CatchConfig} : tryOther.isSome = tryBlock.isSome →
    (∀ p ∈ tryBlock, ∀ q ∈ tryOther, Pipeline.Varies x scopes p q) →
    catchOther.isSome = catchBlock.isSome →
    (∀ p ∈ catchBlock, ∀ q ∈ catchOther, Pipeline.Varies x scopes p q) →
    finallyOther.isSome = finallyBlock.isSome →
    (∀ p ∈ finallyBlock, ∀ q ∈ finallyOther, Pipeline.Varies x scopes p q) →
    Valve.Varies x scopes (.guarded tryBlock catchBlock finallyBlock config)
      (.guarded tryOther catchOther finallyOther config)

end

inductive Frames.Varies (x : Variation) : List Frame → List Frame → Prop
  | nil : Frames.Varies x [] []
  | cons {f g : Frame} {outer others : List Frame} :
    Pipeline.Varies x (labels outer) f.pipeline g.pipeline → g.cursor = f.cursor →
    g.reached = f.reached → Frames.Varies x outer others →
    Frames.Varies x (f :: outer) (g :: others)

def Mark.isRequest : Mark → Bool
  | .request _ => true
  | _ => false

inductive Mark.Varies (x : Variation) (scopes : List (Option String)) : Mark → Mark → Prop
  | same {m : Mark} : m.isRequest = false → Mark.Varies x scopes m m
  | request {a b : Signal} : x.signals scopes a b → Mark.Varies x scopes (.request a) (.request b)

structure Moment.Varies (x : Variation) (m n : Moment) : Prop where
  mark : Mark.Varies x (labels m.frames) m.mark n.mark
  frames : Frames.Varies x m.frames n.frames
  pending : n.pending.isSome = m.pending.isSome

namespace Pipeline.Varies

variable {x : Variation} {outer : List (Option String)} {p q : Pipeline}

theorem label_eq (h : p.Varies x outer q) : q.label = p.label := by
  cases h with
  | intro hlabel => exact hlabel

theorem getElem?_eq_none (h : p.Varies x outer q) {i : Nat} (hi : p.valves[i]? = none) :
    q.valves[i]? = none := by
  cases h with
  | intro _ hlength _ =>
    rw [List.getElem?_eq_none_iff] at hi ⊢
    rwa [hlength]

theorem getElem?_eq_some (h : p.Varies x outer q) {i : Nat} {v : Valve}
    (hi : p.valves[i]? = some v) :
    ∃ w, q.valves[i]? = some w ∧ v.Varies x (p.label :: outer) w := by
  cases h with
  | intro _ hlength hvalves =>
    obtain ⟨hlt, rfl⟩ := List.getElem?_eq_some_iff.mp hi
    have hlt' : i < q.valves.length := by rwa [hlength]
    refine ⟨q.valves[i], List.getElem?_eq_getElem hlt', hvalves (p.valves[i], q.valves[i]) ?_⟩
    rw [List.mem_iff_getElem]
    exact ⟨i, by rw [List.length_zip]; exact Nat.lt_min.mpr ⟨hlt, hlt'⟩, List.getElem_zip⟩

theorem blocks {p? q? : Option Pipeline} (hthere : q?.isSome = p?.isSome)
    (h : ∀ p ∈ p?, ∀ q ∈ q?, p.Varies x outer q) : Option.Rel (Pipeline.Varies x outer) p? q? := by
  cases p? with
  | none =>
    rw [Option.isSome_none, Option.isSome_eq_false_iff, Option.isNone_iff_eq_none] at hthere
    rw [hthere]
    exact .none
  | some p =>
    obtain ⟨q, rfl⟩ := Option.isSome_iff_exists.mp hthere
    exact .some (h p rfl q rfl)

end Pipeline.Varies

namespace Frames.Varies

variable {x : Variation} {a b : List Frame}

theorem labels_eq (h : Frames.Varies x a b) : labels b = labels a := by
  induction h with
  | nil => rfl
  | cons hp _ _ _ ih =>
    simp only [labels, List.map_cons] at ih ⊢
    rw [hp.label_eq, ih]

theorem length_eq (h : Frames.Varies x a b) : b.length = a.length := by
  simpa [labels] using congrArg List.length h.labels_eq

theorem tail (h : Frames.Varies x a b) : Frames.Varies x a.tail b.tail := by
  cases h with
  | nil => exact .nil
  | cons _ _ _ h => exact h

end Frames.Varies

def Json.maskField (hidden : List String) (field : String × Json) : String × Json :=
  (field.1, if field.1 ∈ hidden then .null else field.2)

def Json.masked (hidden : List String) : Json → Json
  | .object fields => .object (fields.map (maskField hidden))
  | value => value

def Event.masked (hidden : String → List String) (e : Event) : Event :=
  { e with data := e.data.map (Json.masked (hidden e.type)) }

namespace Json

variable {hidden : List String}

theorem map_maskField_set (t : Table Json) (key : String) (value : Json) :
    (t.set key value).map (maskField hidden) =
      Table.set (t.map (maskField hidden)) key (maskField hidden (key, value)).2 := by
  induction t with
  | nil => rfl
  | cons entry rest ih =>
    obtain ⟨k, v⟩ := entry
    show List.map (maskField hidden) (Table.set ((k, v) :: rest) key value) =
      Table.set ((k, (maskField hidden (k, v)).2) :: rest.map (maskField hidden)) key _
    simp only [Table.set]
    split
    · rfl
    · split
      · rfl
      · rw [List.map_cons, ih]
        rfl

theorem map_maskField_foldl (fields : List (String × Json)) (t : Table Json) :
    (fields.foldl (fun t (key, value) => Table.set t key value) t).map (maskField hidden) =
      (fields.map (maskField hidden)).foldl (fun t (key, value) => Table.set t key value)
        (t.map (maskField hidden)) := by
  induction fields generalizing t with
  | nil => rfl
  | cons field fields ih =>
    rw [List.foldl_cons, ih, map_maskField_set]
    rfl

theorem masked_ofFields {fields fields' : List (String × Json)}
    (h : fields.map (maskField hidden) = fields'.map (maskField hidden)) :
    (ofFields fields).masked hidden = (ofFields fields').masked hidden := by
  simp only [ofFields, Table.ofPairs, masked, map_maskField_foldl, h]

end Json

namespace Session

def seen (hidden : String → List String) (s : Session) : List Event :=
  s.transcript.events.toList.map (Event.masked hidden)

def logged (s : Session) : List (Severity × String) :=
  s.transcript.log.toList.map fun line => (line.severity, line.message)

/-- The sessions of two runs that vary, inside of scopes with these labels: they differ in nothing else
than the variation admits, the pending signals apart. -/
structure Beside (x : Variation) (scopes : List (Option String)) (s t : Session) : Prop where
  identity : t.identity = s.identity
  pipeline : s.pipeline.Varies x [] t.pipeline
  attributes : t.attributes = s.attributes
  pending : t.pending.isSome = s.pending.isSome
  frames : Frames.Varies x s.frames t.frames
  scopes_eq : labels s.frames = scopes
  invoked : t.invoked = s.invoked
  sink : t.sink = s.sink
  journal : t.transcript.journal = s.transcript.journal
  events : t.seen x.hidden = s.seen x.hidden
  logged : t.logged = s.logged
  trail : List.Forall₂ (Moment.Varies x) s.trail t.trail

structure InStep (x : Variation) (scopes : List (Option String)) (s t : Session) : Prop
    extends Beside x scopes s t where
  signals : Option.Rel (x.signals scopes) s.pending t.pending

/-- What a request of a signal does: it warns of a label that no walk carries, and makes the signal
the pending one. -/
theorem requestBreak_eq (s : Session) (signal : Signal) :
    ∃ lost fields, s.requestBreak signal =
      { (if signal.isLost (labels s.frames) then
          s.log .warn "No enclosing pipeline carries this label; the break will unwind to the top"
            lost
        else s).log .debug "Break requested" fields with
        pending := some signal }.mark (.request signal) := by
  cases signal with
  | label name =>
    have hfind : (labels s.frames).findIdx? (· == some name) = s.findLabel name := by
      rw [labels, List.findIdx?_map]
      rfl
    simp only [requestBreak, Signal.isLost, hfind]
    exact ⟨_, _, rfl⟩
  | level count => exact ⟨[], _, rfl⟩
  | exit => exact ⟨[], _, rfl⟩

namespace Beside

variable {x : Variation} {scopes : List (Option String)} {s t : Session}

theorem pend (h : s.Beside x scopes t) {a b : Option Signal} (hab : b.isSome = a.isSome) :
    Beside x scopes { s with pending := a } { t with pending := b } :=
  { h with pending := hab }

theorem pushLine (h : s.Beside x scopes t) {line line' : LogLine}
    (hseverity : line'.severity = line.severity) (hmessage : line'.message = line.message) :
    Beside x scopes
      { s with transcript := { s.transcript with log := s.transcript.log.push line } }
      { t with transcript := { t.transcript with log := t.transcript.log.push line' } } :=
  { h with
    logged := by
      have := h.logged
      simp only [Session.logged, Array.toList_push, List.map_append, List.map_singleton,
        hseverity, hmessage] at this ⊢
      rw [this] }

theorem pushEvent (h : s.Beside x scopes t) {event event' : Event}
    (hevent : event'.masked x.hidden = event.masked x.hidden) :
    Beside x scopes
      { s with transcript := { s.transcript with events := s.transcript.events.push event } }
      { t with transcript := { t.transcript with events := t.transcript.events.push event' } } :=
  { h with
    events := by
      have := h.events
      simp only [Session.seen, Array.toList_push, List.map_append, List.map_singleton,
        hevent] at this ⊢
      rw [this] }

theorem log (h : s.Beside x scopes t) (severity : Severity) (message : String)
    (fields fields' : List (String × Json)) :
    (s.log severity message fields).Beside x scopes (t.log severity message fields') :=
  h.pushLine rfl rfl

theorem note (h : s.Beside x scopes t) (entry : String) :
    (s.note entry).Beside x scopes (t.note entry) :=
  { h with journal := congrArg (·.push entry) h.journal }

theorem setAttribute (h : s.Beside x scopes t) (key : String) (value : Json) :
    (s.setAttribute key value).Beside x scopes (t.setAttribute key value) :=
  { h with attributes := congrArg (·.set key value) h.attributes }

theorem invoke (h : s.Beside x scopes t) :
    Beside x scopes { s with invoked := true } { t with invoked := true } :=
  { h with invoked := rfl }

theorem depth_eq (h : s.Beside x scopes t) : t.depth = s.depth :=
  h.frames.length_eq

theorem displayName_eq (h : s.Beside x scopes t) :
    t.pipeline.displayName = s.pipeline.displayName := by
  rw [Pipeline.displayName, h.pipeline.label_eq, Pipeline.displayName]

theorem locate_masked (h : s.Beside x scopes t) {hidden : List String} {data data' : Json}
    (hdata : data'.masked hidden = data.masked hidden) :
    (t.locate data').masked hidden = (s.locate data).masked hidden := by
  have hposition : t.position = s.position := by
    simp only [position, h.identity, h.displayName_eq, h.depth_eq]
  cases data <;> cases data' <;>
    simp_all [locate, Json.masked, Json.map_maskField_foldl]

theorem emit (h : s.Beside x scopes t) {type : String} {data data' : Json}
    (hdata : data'.masked (x.hidden type) = data.masked (x.hidden type)) :
    (s.emit type data).Beside x scopes (t.emit type data') := by
  cases hs : s.sink with
  | discard =>
    have ht : t.sink = .discard := h.sink.trans hs
    simpa only [Session.emit, hs, ht] using h
  | log severity =>
    have ht : t.sink = .log severity := h.sink.trans hs
    simpa only [Session.emit, hs, ht] using h.pushLine rfl rfl
  | collect =>
    have ht : t.sink = .collect := h.sink.trans hs
    have hevent : Event.masked x.hidden { type, data := some (t.locate data') } =
        Event.masked x.hidden { type, data := some (s.locate data) } := by
      simp only [Event.masked, Option.map_some, h.locate_masked hdata]
    simpa only [Session.emit, hs, ht] using h.pushEvent hevent

theorem mark (h : s.Beside x scopes t) {m n : Mark} (hmark : Mark.Varies x scopes m n) :
    (s.mark m).Beside x scopes (t.mark n) := by
  refine { h with trail := ?_ }
  rw [trail_mark, trail_mark]
  have moment : Moment.Varies x ⟨m, s.frames, s.pending⟩ ⟨n, t.frames, t.pending⟩ :=
    ⟨h.scopes_eq ▸ hmark, h.frames, h.pending⟩
  exact List.rel_append h.trail (.cons moment .nil)

theorem lasting (x : Variation) (scopes : List (Option String)) : Lasting (Beside x scopes) where
  depth h := h.depth_eq
  log _ _ _ h := h.pushLine rfl rfl
  note entry h := h.note entry
  set key value h := h.setAttribute key value
  pend _ h := h.pend rfl
  emit _ _ h := h.emit rfl
  asked condition answer h := by
    rw [h.attributes]
    exact h.mark (.same rfl)
  iterated _ h := h.mark (.same rfl)

theorem ask (h : s.Beside x scopes t) (condition : Condition) :
    (t.ask condition).1 = (s.ask condition).1 ∧
      (s.ask condition).2.Beside x scopes (t.ask condition).2 :=
  (lasting x scopes).ask h (by rw [h.attributes])

theorem enterPipeline (h : s.Beside x scopes t) {p q : Pipeline} (hpq : p.Varies x scopes q) :
    (s.enterPipeline p).Beside x (p.label :: scopes) (t.enterPipeline q) := by
  have entered : Beside x (p.label :: scopes)
      { s with frames := { pipeline := p } :: s.frames }
      { t with frames := { pipeline := q } :: t.frames } :=
    { h with
      frames := .cons (h.scopes_eq ▸ hpq) rfl rfl h.frames
      scopes_eq := congrArg (p.label :: ·) h.scopes_eq }
  unfold Session.enterPipeline
  rw [hpq.label_eq]
  exact entered.mark (.same rfl)

theorem leavePipeline {label : Option String} (h : s.Beside x (label :: scopes) t)
    (failure : Option ValveFailure) :
    (s.leavePipeline failure).Beside x scopes (t.leavePipeline failure) := by
  have left : Beside x scopes { s with frames := s.frames.tail }
      { t with frames := t.frames.tail } :=
    { h with
      frames := h.frames.tail
      scopes_eq := by
        have := congrArg List.tail h.scopes_eq
        rwa [labels, ← List.map_tail] at this }
  exact left.mark (.same rfl)

theorem enterValve (h : s.Beside x scopes t) {f g : Frame} {outer others : List Frame}
    (hs : s.frames = f :: outer) (ht : t.frames = g :: others) (i : Nat) :
    (s.enterValve f outer i).Beside x scopes (t.enterValve g others i) := by
  have hframes := h.frames
  rw [hs, ht] at hframes
  have hscopes := h.scopes_eq
  rw [hs] at hscopes
  cases hframes with
  | cons hpipeline _ _ houter =>
    have begun : Beside x scopes
        { s with frames := { f with cursor := some i, reached := some i } :: outer }
        { t with frames := { g with cursor := some i, reached := some i } :: others } :=
      { h with
        frames := .cons hpipeline rfl rfl houter
        scopes_eq := hscopes }
    exact begun.mark (.same rfl)

theorem leaveValve (h : s.Beside x scopes t) (i : Nat) (cursor : Option Nat)
    (failure : Option ValveFailure) :
    (s.leaveValve i cursor failure).Beside x scopes (t.leaveValve i cursor failure) := by
  have hframes := h.frames
  have hscopes := h.scopes_eq
  generalize hs : s.frames = inner at hframes hscopes
  generalize ht : t.frames = others at hframes
  cases hframes with
  | nil =>
    have left : Beside x scopes { s with frames := [] } { t with frames := [] } :=
      { h with
        frames := .nil
        scopes_eq := hscopes }
    simpa only [Session.leaveValve, hs, ht] using left.mark (.same rfl)
  | @cons f g outer others hpipeline _ hreached houter =>
    have left : Beside x scopes { s with frames := { f with cursor } :: outer }
        { t with frames := { g with cursor } :: others } :=
      { h with
        frames := .cons hpipeline rfl hreached houter
        scopes_eq := hscopes }
    simpa only [Session.leaveValve, hs, ht] using left.mark (.same rfl)

theorem requestBreak (hx : x.Lawful) (h : s.Beside x scopes t) {a b : Signal}
    (hab : x.signals scopes a b) :
    (s.requestBreak a).Beside x scopes (t.requestBreak b) := by
  obtain ⟨lost, fields, hs⟩ := s.requestBreak_eq a
  obtain ⟨lost', fields', ht⟩ := t.requestBreak_eq b
  rw [hs, ht, h.frames.labels_eq, h.scopes_eq, hx.lost hab]
  have warned : Beside x scopes
      (if a.isLost scopes then
        s.log .warn "No enclosing pipeline carries this label; the break will unwind to the top" lost
      else s)
      (if a.isLost scopes then
        t.log .warn "No enclosing pipeline carries this label; the break will unwind to the top"
          lost'
      else t) := by
    split
    · exact h.log ..
    · exact h
  have requested := (warned.log .debug "Break requested" fields fields').pend
    (show (some b).isSome = (some a).isSome from rfl)
  exact requested.mark (.request hab)

theorem begin (hx : x.Lawful) (h : s.Beside x scopes t) {c d : LoopConfig} (hcd : x.loops c d)
    (count : Nat) : (Loop.begin c count s).Beside x scopes (Loop.begin d count t) := by
  have counted := (h.setAttribute c.counter (.nat count)).log .debug "Loop iteration"
    [("iteration", .nat count), ("counter", .string c.counter)]
    [("iteration", .nat count), ("counter", .string c.counter)]
  unfold Loop.begin
  rw [hx.counter hcd]
  refine Beside.mark (counted.emit (Json.masked_ofFields ?_)) (.same rfl)
  rcases hx.bound hcd with rfl | hhidden
  · rfl
  · simp [Json.maskField, hhidden]

theorem absorbBreak (hx : x.Lawful) (h : s.Beside x scopes t) {inner : List (Option String)}
    {a b : Signal} (hab : x.signals inner a b) (label : Option String) :
    (s.absorbBreak a label).Beside x scopes (t.absorbBreak b label) := by
  have dropped : s.dropBreak.Beside x scopes t.dropBreak := h.pend rfl
  refine (dropped.log ..).emit (Json.masked_ofFields ?_)
  rcases hx.shown hab with rfl | hhidden
  · rfl
  · simp [Json.maskField, hhidden "boundary.absorbed" (by decide)]

theorem passBreak (hx : x.Lawful) (h : s.Beside x scopes t) {inner : List (Option String)}
    {a b a' b' : Signal} (hab : x.signals inner a b) (hnext : x.signals scopes a' b')
    (label : Option String) :
    (s.passBreak a a' label).InStep x scopes (t.passBreak b b' label) := by
  have dropped : s.dropBreak.Beside x scopes t.dropBreak := h.pend rfl
  refine ⟨Beside.pend ((dropped.log ..).emit (Json.masked_ofFields ?_)) rfl, .some hnext⟩
  have hidden (hall : ∀ type ∈ Signal.eventTypes,
      "signal" ∈ x.hidden type ∧ "next" ∈ x.hidden type) (c c' d d' : Signal) :
      [("signal", d.toJson), ("next", d'.toJson), ("label", labelJson label)].map
          (Json.maskField (x.hidden "boundary.propagated")) =
        [("signal", c.toJson), ("next", c'.toJson), ("label", labelJson label)].map
          (Json.maskField (x.hidden "boundary.propagated")) := by
    simp [Json.maskField, hall "boundary.propagated" (by decide)]
  rcases hx.shown hab with rfl | hall
  · rcases hx.shown hnext with rfl | hall
    · rfl
    · exact hidden hall ..
  · exact hidden hall ..

theorem settle (hx : x.Lawful) (h : s.Beside x scopes t) {label : Option String}
    (hpending : Option.Rel (x.signals (label :: scopes)) s.pending t.pending) :
    (t.settle label).1 = (s.settle label).1 ∧
      (s.settle label).2.InStep x scopes (t.settle label).2 := by
  cases hs : s.pending with
  | none =>
    rw [hs] at hpending
    cases ht : t.pending with
    | none =>
      rw [settle_of_none hs, settle_of_none ht]
      exact ⟨rfl, h, by rw [hs, ht]; exact .none⟩
    | some b => rw [ht] at hpending; cases hpending
  | some a =>
    rw [hs] at hpending
    cases ht : t.pending with
    | none => rw [ht] at hpending; cases hpending
    | some b =>
      rw [ht] at hpending
      cases hpending with
      | some hab =>
        rcases hx.boundary hab with ⟨ha, hb⟩ | ⟨a', b', ha, hb, hnext⟩
        · rw [settle_of_absorb hs ha, settle_of_absorb ht hb]
          refine ⟨rfl, h.absorbBreak hx hab label, ?_⟩
          rw [pending_absorbBreak, pending_absorbBreak]
          exact .none
        · rw [settle_of_propagate hs ha, settle_of_propagate ht hb]
          exact ⟨rfl, h.passBreak hx hab hnext label⟩

end Beside

end Session

end ValvePipeline
