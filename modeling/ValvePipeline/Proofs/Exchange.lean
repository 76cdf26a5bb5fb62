import Mathlib.Data.List.Forall2
import ValvePipeline.Proofs.Companions
import ValvePipeline.Proofs.UnwindingBlocks

/-!
Two pipelines with other valves at some places. The second run may write more than the first, and one of
the two may halt where the other one breaks; apart from that it does the same. This module says which
valves are exchanged, and when the sessions of the two runs correspond; single changes keep them so.
-/

set_option autoImplicit false
set_option relaxedAutoImplicit false

namespace ValvePipeline

/-- The second list is the first one with further elements put in. -/
inductive Woven {α : Type} (further : α → Prop) : List α → List α → Prop
  | nil : Woven further [] []
  | both {a : α} {l m : List α} : Woven further l m → Woven further (a :: l) (a :: m)
  | put {a : α} {l m : List α} : further a → Woven further l m → Woven further l (a :: m)

namespace Woven

variable {α : Type} {further : α → Prop} {l m l' m' : List α}

theorem refl (further : α → Prop) : ∀ l : List α, Woven further l l
  | [] => .nil
  | _ :: l => .both (refl further l)

theorem append (h : Woven further l m) (h' : Woven further l' m') :
    Woven further (l ++ l') (m ++ m') := by
  induction h with
  | nil => exact h'
  | both _ ih => exact .both ih
  | put ha _ ih => exact .put ha ih

theorem of_all (h : ∀ a ∈ m, further a) : Woven further [] m := by
  induction m with
  | nil => exact .nil
  | cons a m ih =>
    exact .put (h a List.mem_cons_self) (ih fun b hb => h b (List.mem_cons_of_mem a hb))

theorem more (h : Woven further l m) (hm : ∀ a ∈ m', further a) : Woven further l (m ++ m') := by
  simpa using h.append (of_all hm)

theorem eq_of_none (h : Woven further l m) (hnone : ∀ a, ¬further a) : m = l := by
  induction h with
  | nil => rfl
  | both _ ih => rw [ih]
  | put ha _ _ => exact absurd ha (hnone _)

end Woven

/-- Which valves are exchanged between two runs, and what else may differ. -/
structure Exchange where
  /-- The second valve may stand where the first one stands. -/
  swaps : Valve → Valve → Prop
  /-- The second valve may stand where the first one, which halts, stands in a block. -/
  halts : Valve → Valve → Prop
  /-- What the second run may write to the journal besides. -/
  entries : String → Prop
  /-- What the second run may report besides. -/
  events : Event → Prop
  lines : LogLine → Prop
  /-- In runs with such trails nothing is compared any more. -/
  strayed : List Moment → List Moment → Prop
  lasting {a a' b b' : List Moment} : strayed a b → a <+: a' → b <+: b' → strayed a' b'

/-- The second run may tell of breaks that it requests where the first one is halted. -/
structure Exchange.AdmitsBreaks (x : Exchange) : Prop where
  requested (fields : List (String × Json)) : x.lines (.of .debug "Break requested" fields)
  absorbed (fields : List (String × Json)) : x.lines (.of .debug "Break absorbed at boundary" fields)
  reported (data : Option Json) : x.events ⟨"boundary.absorbed", data⟩
  written (severity : Severity) : x.lines (Sink.line severity "boundary.absorbed")

def Exchange.Breaks (x : Exchange) : Prop :=
  ∀ {v w : Valve}, x.halts v w → x.AdmitsBreaks

def Valve.isLeaf : Valve → Bool
  | .passThrough | .setAttribute _ _ | .log _ _ | .record _ _ | .failing _ _ | .breakWith _ | .exit
  | .breakIf _ _ | .breakUnless _ _ => true
  | _ => false

mutual

/-- The same pipelines but for exchanged valves. Only in some pipelines may these be valves that halt,
and there no other scripts stand beside them. -/
inductive Pipeline.Exchanged (x : Exchange) : Bool → Pipeline → Pipeline → Prop
  | intro {halting : Bool} {p q : Pipeline} : q.label = p.label →
    p.valves.length = q.valves.length →
    (∀ {v w : Valve}, (v, w) ∈ p.valves.zip q.valves → Valve.Exchanged x halting v w) →
    Pipeline.Exchanged x halting p q

inductive Valve.Exchanged (x : Exchange) : Bool → Valve → Valve → Prop
  | leaf {halting : Bool} {v : Valve} : v.isLeaf = true → Valve.Exchanged x halting v v
  | scripted {name : String} {script : Script} :
    Valve.Exchanged x false (.scripted name script) (.scripted name script)
  | swap {halting : Bool} {v w : Valve} : x.swaps v w → Valve.Exchanged x halting v w
  | halt {v w : Valve} : x.halts v w → Valve.Exchanged x true v w
  | loop {halting : Bool} {p q : Pipeline} {config : LoopConfig} : Pipeline.Exchanged x false p q →
    Valve.Exchanged x halting (.loop p config) (.loop q config)
  | whileLoop {halting : Bool} {condition : Condition} {p q : Pipeline} {config : LoopConfig} :
    Pipeline.Exchanged x false p q →
    Valve.Exchanged x halting (.whileLoop condition p config) (.whileLoop condition q config)
  | ifThen {halting : Bool} {condition : Condition} {p q : Pipeline} : Block.Exchanged x p q →
    Valve.Exchanged x halting (.ifThen condition p) (.ifThen condition q)
  | choose {halting : Bool} {bs cs : List Branch} {last other : Option Pipeline} :
    List.Forall₂ (Branch.Exchanged x) bs cs → Option.Rel (Block.Exchanged x) last other →
    Valve.Exchanged x halting (.choose bs last) (.choose cs other)
  | sub {halting : Bool} {p q : Pipeline} : Block.Exchanged x p q →
    Valve.Exchanged x halting (.sub p) (.sub q)
  | guarded {halting : Bool}
    {tryBlock tryOther catchBlock catchOther finallyBlock finallyOther : Option Pipeline}
    {config : CatchConfig} : Option.Rel (Block.Exchanged x) tryBlock tryOther →
    Option.Rel (Block.Exchanged x) catchBlock catchOther →
    Option.Rel (Block.Exchanged x) finallyBlock finallyOther →
    Valve.Exchanged x halting (.guarded tryBlock catchBlock finallyBlock config)
      (.guarded tryOther catchOther finallyOther config)

inductive Block.Exchanged (x : Exchange) : Pipeline → Pipeline → Prop
  | intro {halting : Bool} {p q : Pipeline} : Pipeline.Exchanged x halting p q →
    Block.Exchanged x p q

inductive Branch.Exchanged (x : Exchange) : Branch → Branch → Prop
  | intro {condition : Condition} {p q : Pipeline} : Block.Exchanged x p q →
    Branch.Exchanged x ⟨condition, p⟩ ⟨condition, q⟩

end

mutual

theorem Pipeline.exchanged_self (x : Exchange) : ∀ p : Pipeline, p.Exchanged x false p
  | ⟨_, valves⟩ => .intro rfl rfl (Valve.all_exchanged_self x valves)

theorem Valve.all_exchanged_self (x : Exchange) : ∀ (valves : List Valve) {v w : Valve},
    (v, w) ∈ valves.zip valves → v.Exchanged x false w
  | valve :: valves, v, w, h => by
    rcases List.mem_cons.mp h with hsame | hrest
    · obtain ⟨rfl, rfl⟩ := Prod.mk.inj hsame
      exact Valve.exchanged_self x (.inl rfl)
    · exact Valve.all_exchanged_self x valves hrest

theorem Valve.exchanged_self (x : Exchange) {halting : Bool} : ∀ {v : Valve},
    halting = false ∨ (∀ name script, v ≠ .scripted name script) → v.Exchanged x halting v
  | .passThrough, _ => .leaf rfl
  | .setAttribute _ _, _ => .leaf rfl
  | .log _ _, _ => .leaf rfl
  | .record _ _, _ => .leaf rfl
  | .failing _ _, _ => .leaf rfl
  | .scripted name script, h => by
    rcases h with rfl | h
    · exact .scripted
    · exact absurd rfl (h name script)
  | .breakWith _, _ => .leaf rfl
  | .exit, _ => .leaf rfl
  | .breakIf _ _, _ => .leaf rfl
  | .breakUnless _ _, _ => .leaf rfl
  | .loop body _, _ => .loop (Pipeline.exchanged_self x body)
  | .whileLoop _ body _, _ => .whileLoop (Pipeline.exchanged_self x body)
  | .ifThen _ block, _ => .ifThen (.intro (Pipeline.exchanged_self x block))
  | .choose branches otherwise, _ =>
    .choose (Branch.all_exchanged_self x branches) (Pipeline.exchanged_self? x otherwise)
  | .sub pipeline, _ => .sub (.intro (Pipeline.exchanged_self x pipeline))
  | .guarded tryBlock catchBlock finallyBlock _, _ =>
    .guarded (Pipeline.exchanged_self? x tryBlock) (Pipeline.exchanged_self? x catchBlock)
      (Pipeline.exchanged_self? x finallyBlock)

theorem Branch.all_exchanged_self (x : Exchange) :
    ∀ branches : List Branch, List.Forall₂ (Branch.Exchanged x) branches branches
  | [] => .nil
  | ⟨_, block⟩ :: branches =>
    .cons (.intro (.intro (Pipeline.exchanged_self x block))) (Branch.all_exchanged_self x branches)

theorem Pipeline.exchanged_self? (x : Exchange) :
    ∀ block : Option Pipeline, Option.Rel (Block.Exchanged x) block block
  | none => .none
  | some block => .some (.intro (Pipeline.exchanged_self x block))

end

namespace Pipeline.Exchanged

variable {x : Exchange} {halting : Bool} {p q : Pipeline}

theorem label_eq (h : p.Exchanged x halting q) : q.label = p.label := by
  cases h with
  | intro hlabel => exact hlabel

theorem valves (h : p.Exchanged x halting q) :
    List.Forall₂ (Valve.Exchanged x halting) p.valves q.valves := by
  cases h with
  | intro _ hlength hvalves => exact List.forall₂_iff_zip.mpr ⟨hlength, hvalves⟩

theorem getElem?_eq_none (h : p.Exchanged x halting q) {i : Nat} (hi : p.valves[i]? = none) :
    q.valves[i]? = none := by
  rw [List.getElem?_eq_none_iff] at hi ⊢
  rwa [← h.valves.length_eq]

theorem getElem?_eq_some (h : p.Exchanged x halting q) {i : Nat} {v : Valve}
    (hi : p.valves[i]? = some v) :
    ∃ w, q.valves[i]? = some w ∧ v.Exchanged x halting w := by
  obtain ⟨hlt, rfl⟩ := List.getElem?_eq_some_iff.mp hi
  have hlt' : i < q.valves.length := h.valves.length_eq ▸ hlt
  exact ⟨q.valves[i], List.getElem?_eq_getElem hlt', h.valves.get hlt hlt'⟩

end Pipeline.Exchanged

/-- The same walks, of pipelines in which valves are exchanged. The first argument says for each of them
whether it may have valves that halt. -/
inductive Frames.Exchanged (x : Exchange) : List Bool → List Frame → List Frame → Prop
  | nil : Frames.Exchanged x [] [] []
  | cons {halting : Bool} {scopes : List Bool} {f g : Frame} {outer others : List Frame} :
    Pipeline.Exchanged x halting f.pipeline g.pipeline → g.cursor = f.cursor →
    g.reached = f.reached → Frames.Exchanged x scopes outer others →
    Frames.Exchanged x (halting :: scopes) (f :: outer) (g :: others)

namespace Frames.Exchanged

variable {x : Exchange} {scopes : List Bool} {a b : List Frame}

theorem labels_eq (h : Frames.Exchanged x scopes a b) : labels b = labels a := by
  induction h with
  | nil => rfl
  | cons hp _ _ _ ih =>
    simp only [labels, List.map_cons] at ih ⊢
    rw [hp.label_eq, ih]

theorem length_eq (h : Frames.Exchanged x scopes a b) : b.length = a.length := by
  simpa [labels] using congrArg List.length h.labels_eq

theorem cursor_eq (h : Frames.Exchanged x scopes a b) :
    b.head?.bind (·.cursor) = a.head?.bind (·.cursor) := by
  cases h with
  | nil => rfl
  | cons _ hcursor _ _ => exact hcursor

end Frames.Exchanged

theorem Frames.exchanged_self (x : Exchange) : ∀ frames : List Frame,
    Frames.Exchanged x (frames.map fun _ => false) frames frames
  | [] => .nil
  | frame :: frames =>
    .cons (frame.pipeline.exchanged_self x) rfl rfl (Frames.exchanged_self x frames)

def Moment.begun? (m : Moment) : Option Valve :=
  match m.mark with
  | .enterValve _ => m.valve?
  | _ => none

def Trail.begun (moments : List Moment) : List Valve :=
  moments.filterMap Moment.begun?

theorem Trail.begun_concat_of_some {m : Moment} {v : Valve} (h : m.begun? = some v)
    (moments : List Moment) : begun (moments ++ [m]) = begun moments ++ [v] := by
  rw [begun, List.filterMap_append, List.filterMap_cons_some h, List.filterMap_nil, begun]

theorem Trail.begun_concat_of_none {m : Moment} (h : m.begun? = none) (moments : List Moment) :
    begun (moments ++ [m]) = begun moments := by
  rw [begun, List.filterMap_append, List.filterMap_cons_none h, List.filterMap_nil,
    List.append_nil, begun]

namespace Session

def valve? (s : Session) : Option Valve :=
  s.frames.head?.bind Frame.valve?

def Begins (s : Session) (v : Valve) : Prop :=
  ∃ earlier enter, s.trail = earlier ++ [enter] ∧ enter.begun? = some v ∧ enter.frames = s.frames

theorem Begins.running {s : Session} {v : Valve} (h : s.Begins v) : s.valve? = some v := by
  obtain ⟨earlier, ⟨mark, frames, pending⟩, -, hbegun, rfl⟩ := h
  cases mark with
  | enterValve i => exact hbegun
  | _ => cases hbegun

theorem Begins.last {s : Session} {v : Valve} (h : s.Begins v) :
    (Trail.begun s.trail).getLast? = some v := by
  obtain ⟨earlier, enter, htrail, hbegun, -⟩ := h
  rw [htrail, Trail.begun_concat_of_some hbegun, List.getLast?_concat]

theorem begun_enterValve {f : Frame} {i : Nat} {v : Valve} (hv : f.pipeline.valves[i]? = some v)
    (s : Session) (outer : List Frame) :
    Trail.begun (s.enterValve f outer i).trail = Trail.begun s.trail ++ [v] := by
  have htrail : (s.enterValve f outer i).trail = s.trail ++ [⟨.enterValve i,
      { f with cursor := some i, reached := some i } :: outer, s.pending⟩] := trail_mark _ _
  have hbegun : Moment.begun? ⟨.enterValve i,
      { f with cursor := some i, reached := some i } :: outer, s.pending⟩ = some v := hv
  rw [htrail, Trail.begun_concat_of_some hbegun]

theorem begins_enterValve {f : Frame} {i : Nat} {v : Valve} (hv : f.pipeline.valves[i]? = some v)
    (s : Session) (outer : List Frame) : (s.enterValve f outer i).Begins v :=
  ⟨_, _, trail_mark _ _, hv, rfl⟩

/-- The sessions of two runs that correspond, the pending signals apart. The second argument says for
each walk under way whether it may have valves that halt. -/
structure Corresponds (x : Exchange) (scopes : List Bool) (s t : Session) : Prop where
  identity : t.identity = s.identity
  pipeline : s.pipeline.Exchanged x false t.pipeline
  attributes : t.attributes = s.attributes
  frames : Frames.Exchanged x scopes s.frames t.frames
  invoked : t.invoked = s.invoked
  sink : t.sink = s.sink
  journal : Woven x.entries s.transcript.journal.toList t.transcript.journal.toList
  events : Woven x.events s.transcript.events.toList t.transcript.events.toList
  logged : Woven x.lines s.transcript.log.toList t.transcript.log.toList
  /-- As many valves have begun. -/
  begun : (Trail.begun t.trail).length = (Trail.begun s.trail).length

structure Agrees (x : Exchange) (scopes : List Bool) (s t : Session) : Prop
    extends Corresponds x scopes s t where
  pending : t.pending = s.pending

namespace Corresponds

variable {x : Exchange} {scopes : List Bool} {s t : Session}

theorem pend (h : s.Corresponds x scopes t) (a b : Option Signal) :
    Corresponds x scopes { s with pending := a } { t with pending := b } :=
  { h with }

theorem agree (h : s.Corresponds x scopes t) (pending : Option Signal) :
    Agrees x scopes { s with pending } { t with pending } :=
  ⟨h.pend pending pending, rfl⟩

theorem pushLine (h : s.Corresponds x scopes t) (line : LogLine) :
    Corresponds x scopes
      { s with transcript := { s.transcript with log := s.transcript.log.push line } }
      { t with transcript := { t.transcript with log := t.transcript.log.push line } } :=
  { h with
    logged := by
      simpa only [Array.toList_push] using h.logged.append (.refl x.lines [line]) }

theorem addLine (h : s.Corresponds x scopes t) {line : LogLine} (hline : x.lines line) :
    Corresponds x scopes s
      { t with transcript := { t.transcript with log := t.transcript.log.push line } } :=
  { h with
    logged := by
      simpa only [Array.toList_push] using
        h.logged.more fun _ ha => List.mem_singleton.mp ha ▸ hline }

theorem log (h : s.Corresponds x scopes t) (severity : Severity) (message : String)
    {fields fields' : List (String × Json)} (hfields : fields' = fields) :
    (s.log severity message fields).Corresponds x scopes (t.log severity message fields') := by
  subst hfields
  exact h.pushLine _

theorem addLog (h : s.Corresponds x scopes t) {severity : Severity} {message : String}
    {fields : List (String × Json)} (hline : x.lines (.of severity message fields)) :
    Corresponds x scopes s (t.log severity message fields) :=
  h.addLine hline

theorem note (h : s.Corresponds x scopes t) (entry : String) :
    (s.note entry).Corresponds x scopes (t.note entry) :=
  { h with
    journal := by
      simpa only [Session.note, Array.toList_push] using
        h.journal.append (.refl x.entries [entry]) }

theorem addNotes (h : s.Corresponds x scopes t) {entries : List String}
    (hentries : ∀ entry ∈ entries, x.entries entry) :
    Corresponds x scopes s (t.noteAll entries) := by
  induction entries generalizing t with
  | nil => exact h
  | cons entry entries ih =>
    have noted : Corresponds x scopes s (t.note entry) :=
      { h with
        journal := by
          simpa only [Session.note, Array.toList_push] using h.journal.more fun _ ha =>
            List.mem_singleton.mp ha ▸ hentries entry List.mem_cons_self }
    exact ih noted fun e he => hentries e (List.mem_cons_of_mem entry he)

theorem setAttribute (h : s.Corresponds x scopes t) (key : String) (value : Json) :
    (s.setAttribute key value).Corresponds x scopes (t.setAttribute key value) :=
  { h with attributes := congrArg (·.set key value) h.attributes }

theorem removeAttribute (h : s.Corresponds x scopes t) (key : String) :
    (s.removeAttribute key).Corresponds x scopes (t.removeAttribute key) :=
  { h with attributes := congrArg (·.erase key) h.attributes }

theorem invoke (h : s.Corresponds x scopes t) :
    Corresponds x scopes { s with invoked := true } { t with invoked := true } :=
  { h with invoked := rfl }

theorem depth_eq (h : s.Corresponds x scopes t) : t.depth = s.depth :=
  h.frames.length_eq

theorem index_eq (h : s.Corresponds x scopes t) : t.index = s.index :=
  h.frames.cursor_eq

theorem displayName_eq (h : s.Corresponds x scopes t) :
    t.pipeline.displayName = s.pipeline.displayName := by
  rw [Pipeline.displayName, h.pipeline.label_eq, Pipeline.displayName]

theorem findLabel_eq (h : s.Corresponds x scopes t) (label : String) :
    t.findLabel label = s.findLabel label := by
  have hfind (u : Session) :
      u.findLabel label = (labels u.frames).findIdx? (· == some label) := by
    rw [labels, List.findIdx?_map]
    rfl
  rw [hfind, hfind, h.frames.labels_eq]

theorem locate_eq (h : s.Corresponds x scopes t) (data : Json) : t.locate data = s.locate data := by
  have hposition : t.position = s.position := by
    simp only [position, h.identity, h.displayName_eq, h.depth_eq]
  cases data <;> simp only [locate, hposition]

theorem emit (h : s.Corresponds x scopes t) (type : String) (data : Json) :
    (s.emit type data).Corresponds x scopes (t.emit type data) := by
  cases hs : s.sink with
  | discard =>
    have ht : t.sink = .discard := h.sink.trans hs
    simpa only [Session.emit, hs, ht] using h
  | log severity =>
    have ht : t.sink = .log severity := h.sink.trans hs
    simpa only [Session.emit, hs, ht] using h.pushLine _
  | collect =>
    have ht : t.sink = .collect := h.sink.trans hs
    have pushed (event : Event) : Corresponds x scopes
        { s with transcript := { s.transcript with events := s.transcript.events.push event } }
        { t with transcript := { t.transcript with events := t.transcript.events.push event } } :=
      { h with
        events := by
          simpa only [Array.toList_push] using h.events.append (.refl x.events [event]) }
    simpa only [Session.emit, hs, ht, h.locate_eq] using pushed _

theorem addEvent (h : s.Corresponds x scopes t) {type : String} {data : Json}
    (hevent : ∀ data, x.events ⟨type, data⟩) (hline : ∀ severity, x.lines (Sink.line severity type)) :
    s.Corresponds x scopes (t.emit type data) := by
  cases ht : t.sink with
  | discard => simpa only [Session.emit, ht] using h
  | log severity => simpa only [Session.emit, ht] using h.addLine (hline severity)
  | collect =>
    have pushed (event : Event) (hevent : x.events event) : Corresponds x scopes s
        { t with transcript := { t.transcript with events := t.transcript.events.push event } } :=
      { h with
        events := by
          simpa only [Array.toList_push] using
            h.events.more fun _ ha => List.mem_singleton.mp ha ▸ hevent }
    simpa only [Session.emit, ht] using pushed _ (hevent _)

theorem mark (h : s.Corresponds x scopes t) {m n : Mark}
    (hm : Moment.begun? ⟨m, s.frames, s.pending⟩ = none)
    (hn : Moment.begun? ⟨n, t.frames, t.pending⟩ = none) :
    (s.mark m).Corresponds x scopes (t.mark n) :=
  { h with
    begun := by
      rw [trail_mark, trail_mark, Trail.begun_concat_of_none hm, Trail.begun_concat_of_none hn,
        h.begun] }

theorem addMark (h : s.Corresponds x scopes t) {n : Mark}
    (hn : Moment.begun? ⟨n, t.frames, t.pending⟩ = none) : s.Corresponds x scopes (t.mark n) :=
  { h with
    begun := by rw [trail_mark, Trail.begun_concat_of_none hn, h.begun] }

theorem addAsk (h : s.Corresponds x scopes t) {condition : Condition}
    (hentries : ∀ entry ∈ (condition.eval t.attributes).2, x.entries entry) :
    s.Corresponds x scopes (t.ask condition).2 :=
  (h.addNotes hentries).addMark rfl

theorem enterPipeline (h : s.Corresponds x scopes t) {halting : Bool} {p q : Pipeline}
    (hpq : p.Exchanged x halting q) :
    (s.enterPipeline p).Corresponds x (halting :: scopes) (t.enterPipeline q) := by
  have entered : Corresponds x (halting :: scopes)
      { s with frames := { pipeline := p } :: s.frames }
      { t with frames := { pipeline := q } :: t.frames } :=
    { h with frames := .cons hpq rfl rfl h.frames }
  exact entered.mark rfl rfl

theorem leavePipeline {halting : Bool} (h : s.Corresponds x (halting :: scopes) t)
    (failure : Option ValveFailure) :
    (s.leavePipeline failure).Corresponds x scopes (t.leavePipeline failure) := by
  have left : Corresponds x scopes { s with frames := s.frames.tail }
      { t with frames := t.frames.tail } := by
    refine { h with frames := ?_ }
    have hframes := h.frames
    generalize s.frames = a, t.frames = b at hframes
    cases hframes with
    | cons _ _ _ houter => exact houter
  exact left.mark rfl rfl

theorem enterValve (h : s.Corresponds x scopes t) {f g : Frame} {outer others : List Frame}
    (hs : s.frames = f :: outer) (ht : t.frames = g :: others) {i : Nat} {v w : Valve}
    (hv : f.pipeline.valves[i]? = some v) (hw : g.pipeline.valves[i]? = some w) :
    (s.enterValve f outer i).Corresponds x scopes (t.enterValve g others i) := by
  have hframes := h.frames
  rw [hs, ht] at hframes
  refine { h with
    frames := ?_
    begun := ?_ }
  · cases hframes with
    | cons hpipeline _ _ houter => exact .cons hpipeline rfl rfl houter
  · rw [begun_enterValve hv, begun_enterValve hw, List.length_append, List.length_append, h.begun]
    rfl

theorem leaveValve (h : s.Corresponds x scopes t) (i : Nat) (cursor : Option Nat)
    (failure : Option ValveFailure) :
    (s.leaveValve i cursor failure).Corresponds x scopes (t.leaveValve i cursor failure) := by
  have hframes := h.frames
  generalize hs : s.frames = inner at hframes
  generalize ht : t.frames = others at hframes
  cases hframes with
  | nil =>
    have left : Corresponds x [] { s with frames := [] } { t with frames := [] } :=
      { h with frames := .nil }
    simpa only [Session.leaveValve, hs, ht] using left.mark rfl rfl
  | @cons halting scopes f g outer others hpipeline _ hreached houter =>
    have left : Corresponds x (halting :: scopes) { s with frames := { f with cursor } :: outer }
        { t with frames := { g with cursor } :: others } :=
      { h with frames := .cons hpipeline rfl hreached houter }
    simpa only [Session.leaveValve, hs, ht] using left.mark rfl rfl

theorem requestBreak (h : s.Corresponds x scopes t) (signal : Signal) :
    (s.requestBreak signal).Agrees x scopes (t.requestBreak signal) := by
  have requested {u v : Session} (h : u.Corresponds x scopes v)
      (fields : List (String × Json)) : Agrees x scopes
        ({ u.log .debug "Break requested" fields with pending := some signal }.mark
          (.request signal))
        ({ v.log .debug "Break requested" fields with pending := some signal }.mark
          (.request signal)) :=
    ⟨((h.log .debug _ rfl).pend _ _).mark rfl rfl, rfl⟩
  cases signal with
  | label name =>
    simp only [Session.requestBreak, h.findLabel_eq]
    split
    · have warned := h.log .warn
        "No enclosing pipeline carries this label; the break will unwind to the top"
        (Eq.refl [("label", Json.string name)])
      rw [warned.depth_eq, warned.index_eq]
      exact requested warned _
    · rw [h.depth_eq, h.index_eq]
      exact requested h _
  | level count =>
    simp only [Session.requestBreak, h.depth_eq, h.index_eq]
    exact requested h _
  | exit =>
    simp only [Session.requestBreak, h.depth_eq, h.index_eq]
    exact requested h _

theorem addAbsorb (h : s.Corresponds x scopes t) (hx : x.AdmitsBreaks) (hs : s.pending = none)
    (label : Option String) : s.Agrees x scopes (t.absorbBreak (.level 0) label) := by
  have dropped : s.Corresponds x scopes t.dropBreak := { h with }
  have logged := dropped.addLog (hx.absorbed
    ([("signal", .string (Signal.level 0).display), ("depth", .nat t.dropBreak.depth)] ++
      labelField label))
  exact ⟨logged.addEvent hx.reported hx.written, (pending_absorbBreak ..).trans hs.symm⟩

end Corresponds

theorem Agrees.emit {x : Exchange} {scopes : List Bool} {s t : Session} (h : s.Agrees x scopes t)
    (type : String) (data : Json) : (s.emit type data).Agrees x scopes (t.emit type data) :=
  ⟨h.toCorresponds.emit type data, by rw [pending_emit, pending_emit, h.pending]⟩

theorem Agrees.lasting (x : Exchange) (scopes : List Bool) : Lasting (Agrees x scopes) where
  depth h := h.toCorresponds.depth_eq
  log _ _ _ h := ⟨h.toCorresponds.pushLine _, h.pending⟩
  note entry h := ⟨h.toCorresponds.note entry, h.pending⟩
  set key value h := ⟨h.toCorresponds.setAttribute key value, h.pending⟩
  pend pending h := h.toCorresponds.agree pending
  emit type data h := h.emit type data
  asked _ _ h := ⟨h.toCorresponds.mark rfl rfl, h.pending⟩
  iterated _ h := ⟨h.toCorresponds.mark rfl rfl, h.pending⟩

theorem Agrees.ask {x : Exchange} {scopes : List Bool} {s t : Session} (h : s.Agrees x scopes t)
    (condition : Condition) : (t.ask condition).1 = (s.ask condition).1 ∧
      (s.ask condition).2.Agrees x scopes (t.ask condition).2 :=
  (lasting x scopes).ask h (by rw [h.attributes])

theorem Agrees.of_exchanged {x : Exchange} {p q : Pipeline} (h : p.Exchanged x false q)
    (s : Session) : Agrees x (s.frames.map fun _ => false) { s with pipeline := p }
      { s with pipeline := q } where
  identity := rfl
  pipeline := h
  attributes := rfl
  frames := Frames.exchanged_self x s.frames
  invoked := rfl
  sink := rfl
  journal := .refl ..
  events := .refl ..
  logged := .refl ..
  begun := rfl
  pending := rfl

end Session

end ValvePipeline
