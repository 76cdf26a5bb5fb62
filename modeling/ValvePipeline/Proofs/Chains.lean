import ValvePipeline.Proofs.Channels
import ValvePipeline.Proofs.Reports

/-!
Chains of boundary events. Where no guarded valve has a last block, nothing happens between a boundary
that passes a signal on and the next boundary outside of it. So the event of the first is followed at
once by the event of the second, which has the signal as it was passed on; and past the outermost scope
by the event that tells of the unwound run.
-/

set_option autoImplicit false
set_option relaxedAutoImplicit false

namespace ValvePipeline

namespace Event

/-- A boundary at some depth has passed a signal on, in the form that the boundary rule gives it. -/
structure Passes (e : Event) (depth : Nat) (signal next : Signal) : Prop where
  type : e.type = "boundary.propagated"
  place : e.field? "depth" = some (.nat depth)
  came : e.field? "signal" = some signal.toJson
  goes : e.field? "next" = some next.toJson
  rule : ∃ label, e.field? "label" = some (Session.labelJson label) ∧
    signal.atBoundary label = .propagate next

structure Absorbs (e : Event) (depth : Nat) (signal : Signal) : Prop where
  type : e.type = "boundary.absorbed"
  place : e.field? "depth" = some (.nat depth)
  came : e.field? "signal" = some signal.toJson
  rule : ∃ label, e.field? "label" = some (Session.labelJson label) ∧
    signal.atBoundary label = .absorb

structure Unwinds (e : Event) (signal : Signal) : Prop where
  type : e.type = "invocation.unwound"
  came : e.field? "signal" = some signal.toJson

def boundaryTypes : List String :=
  ["boundary.absorbed", "boundary.propagated"]

/-- A boundary at this depth meets the signal, with the depth and the signal of the chain that is open:
it goes on with that chain, or a chain may begin here. -/
def Meets (opened : Option (Nat × Signal)) (depth : Nat) (signal : Signal) : Prop :=
  0 < depth ∧ (opened = none ∨ opened = some (depth + 1, signal))

inductive Link : Option (Nat × Signal) → Event → Option (Nat × Signal) → Prop
  | other {e : Event} : e.type ∉ boundaryTypes → Link none e none
  | absorbs {opened : Option (Nat × Signal)} {e : Event} {depth : Nat} {signal : Signal} :
    Meets opened depth signal → e.Absorbs depth signal → Link opened e none
  | passes {opened : Option (Nat × Signal)} {e : Event} {depth : Nat} {signal next : Signal} :
    Meets opened depth signal → e.Passes depth signal next → Link opened e (some (depth, next))
  | unwinds {e : Event} {signal : Signal} : e.Unwinds signal → Link (some (1, signal)) e none

/-- Events, one after the other, between the chain that is open before them and the one after them. -/
inductive Links : Option (Nat × Signal) → List Event → Option (Nat × Signal) → Prop
  | nil {opened : Option (Nat × Signal)} : Links opened [] opened
  | cons {opened mid closed : Option (Nat × Signal)} {e : Event} {events : List Event} :
    Link opened e mid → Links mid events closed → Links opened (e :: events) closed

/-- What follows after a signal was passed on at some depth: a chain of events, each at the depth of the
next scope outside and with the signal as it was passed on, to the one that absorbs the signal or tells
that it has unwound the run. -/
inductive Chained : Nat → Signal → List Event → Prop
  | unwound {signal : Signal} {e : Event} {rest : List Event} : e.Unwinds signal →
    Chained 1 signal (e :: rest)
  | absorbed {depth : Nat} {signal : Signal} {e : Event} {rest : List Event} : 0 < depth →
    e.Absorbs depth signal → Chained (depth + 1) signal (e :: rest)
  | passed {depth : Nat} {signal next : Signal} {e : Event} {rest : List Event} : 0 < depth →
    e.Passes depth signal next → Chained depth next rest → Chained (depth + 1) signal (e :: rest)

namespace Links

variable {opened mid closed : Option (Nat × Signal)} {events others : List Event} {e : Event}

theorem append (h : Links opened events mid) (h' : Links mid others closed) :
    Links opened (events ++ others) closed := by
  induction h with
  | nil => exact h'
  | cons hlink _ ih => exact .cons hlink (ih h')

theorem concat (h : Links opened events mid) (hlink : Link mid e closed) :
    Links opened (events ++ [e]) closed :=
  h.append (.cons hlink .nil)

theorem split (h : Links opened (events ++ e :: others) closed) :
    ∃ before after, Links opened events before ∧ Link before e after ∧
      Links after others closed := by
  induction events generalizing opened with
  | nil =>
    cases h with
    | cons hlink hrest => exact ⟨_, _, .nil, hlink, hrest⟩
  | cons first events ih =>
    cases h with
    | cons hlink hrest =>
      obtain ⟨before, after, hbefore, hmid, hafter⟩ := ih hrest
      exact ⟨before, after, .cons hlink hbefore, hmid, hafter⟩

theorem chained {depth : Nat} {signal : Signal}
    (h : Links (some (depth, signal)) events none) : Chained depth signal events := by
  induction events generalizing depth signal with
  | nil => cases h
  | cons e events ih =>
    cases h with
    | cons hlink hrest =>
      cases hlink with
      | absorbs hmeets habsorbs =>
        obtain ⟨hdepth, hopened | hopened⟩ := hmeets
        · cases hopened
        · cases hopened
          exact .absorbed hdepth habsorbs
      | passes hmeets hpasses =>
        obtain ⟨hdepth, hopened | hopened⟩ := hmeets
        · cases hopened
        · cases hopened
          exact .passed hdepth hpasses (ih hrest)
      | unwinds hunwinds => exact .unwound hunwinds

theorem chained_of_passed (h : Links opened (events ++ e :: others) none)
    (he : e.type = "boundary.propagated") :
    ∃ depth signal next, 0 < depth ∧ e.Passes depth signal next ∧ Chained depth next others := by
  obtain ⟨before, after, -, hlink, hafter⟩ := h.split
  cases hlink with
  | other htype => exact absurd (by simp [he, boundaryTypes]) htype
  | absorbs _ habsorbs => exact absurd (habsorbs.type.symm.trans he) (by decide)
  | passes hmeets hpasses => exact ⟨_, _, _, hmeets.1, hpasses, hafter.chained⟩
  | unwinds hunwinds => exact absurd (hunwinds.type.symm.trans he) (by decide)

theorem absorbs_of_absorbed (h : Links opened (events ++ e :: others) closed)
    (he : e.type = "boundary.absorbed") : ∃ depth signal, e.Absorbs depth signal := by
  obtain ⟨before, after, -, hlink, -⟩ := h.split
  cases hlink with
  | other htype => exact absurd (by simp [he, boundaryTypes]) htype
  | absorbs _ habsorbs => exact ⟨_, _, habsorbs⟩
  | passes _ hpasses => exact absurd (hpasses.type.symm.trans he) (by decide)
  | unwinds hunwinds => exact absurd (hunwinds.type.symm.trans he) (by decide)

end Links

theorem Passes.signals {e : Event} {depth : Nat} {signal next : Signal}
    (h : e.Passes depth signal next) :
    (∃ count, signal = .level (count + 1) ∧ next = .level count) ∨
      (∃ name, signal = .label name ∧ next = .label name) ∨ signal = .exit ∧ next = .exit := by
  obtain ⟨label, -, hrule⟩ := h.rule
  cases signal with
  | level count =>
    cases count with
    | zero => cases hrule
    | succ count =>
      cases hrule
      exact .inl ⟨count, rfl, rfl⟩
  | label name =>
    simp only [Signal.atBoundary] at hrule
    split at hrule
    · cases hrule
    · cases hrule
      exact .inr (.inl ⟨name, rfl, rfl⟩)
  | exit =>
    cases hrule
    exact .inr (.inr ⟨rfl, rfl⟩)

theorem Absorbs.signals {e : Event} {depth : Nat} {signal : Signal} (h : e.Absorbs depth signal) :
    signal = .level 0 ∨
      ∃ name, signal = .label name ∧ e.field? "label" = some (.string name) := by
  obtain ⟨label, hlabel, hrule⟩ := h.rule
  rcases (Signal.atBoundary_eq_absorb_iff label signal).mp hrule with hlevel | ⟨name, hname, hscope⟩
  · exact .inl hlevel
  · refine .inr ⟨name, hname, ?_⟩
    rw [hlabel, hscope]
    rfl

theorem Chained.exit {depth : Nat} {events : List Event} (h : Chained depth .exit events) :
    ∃ passed e rest, events = passed ++ e :: rest ∧ e.Unwinds .exit ∧
      ∀ f ∈ passed, ∃ depth, f.Passes depth .exit .exit := by
  generalize hsignal : Signal.exit = signal at h
  induction h with
  | @unwound signal e rest hunwinds =>
    subst hsignal
    exact ⟨[], e, rest, rfl, hunwinds, nofun⟩
  | absorbed _ habsorbs =>
    subst hsignal
    obtain ⟨label, -, hrule⟩ := habsorbs.rule
    cases hrule
  | @passed depth signal next e rest _ hpasses _ ih =>
    subst hsignal
    obtain ⟨label, -, hrule⟩ := hpasses.rule
    cases hrule
    obtain ⟨passed, last, after, rfl, hunwinds, hall⟩ := ih rfl
    refine ⟨e :: passed, last, after, rfl, hunwinds, fun f hf => ?_⟩
    rcases List.mem_cons.mp hf with rfl | hf
    · exact ⟨depth, hpasses⟩
    · exact hall f hf

end Event

/-- A guarded valve has no last block. -/
def Valve.EndsOpen (v : Valve) : Prop :=
  ∀ tryBlock catchBlock finallyBlock config,
    v = .guarded tryBlock catchBlock finallyBlock config → finallyBlock = none

namespace Session

def LeavesOpen (base : List Event) (s : Session) (opened : Option (Nat × Signal)) : Prop :=
  ∃ news, s.events = base ++ news ∧ Event.Links none news opened

/-- The events since some earlier point are linked; if a chain is open, its last event was emitted at a
given depth and the signal that it has passed on is pending. -/
structure Linked (base : List Event) (depth place : Nat) (s : Session) : Prop where
  sink : s.sink = .collect
  depth : s.depth = depth
  walks : s.Walks (Pipeline.BuiltOf Valve.EndsOpen)
  chain : s.LeavesOpen base none ∨
    ∃ signal, s.LeavesOpen base (some (place, signal)) ∧ s.pending = some signal

structure Idle (base : List Event) (depth : Nat) (s : Session) : Prop where
  linked : s.Linked base depth depth
  pending : s.pending = none

variable {base : List Event} {depth place : Nat} {s t : Session}

namespace LeavesOpen

variable {opened closed : Option (Nat × Signal)}

theorem of_eq (h : s.LeavesOpen base opened) (hevents : t.events = s.events) :
    t.LeavesOpen base opened := by
  obtain ⟨news, hnews, hlinks⟩ := h
  exact ⟨news, hevents.trans hnews, hlinks⟩

theorem concat (h : s.LeavesOpen base opened) {e : Event} (hevents : t.events = s.events ++ [e])
    (hlink : Event.Link opened e closed) : t.LeavesOpen base closed := by
  obtain ⟨news, hnews, hlinks⟩ := h
  refine ⟨news ++ [e], ?_, hlinks.concat hlink⟩
  rw [hevents, hnews, List.append_assoc]

end LeavesOpen

theorem Linked.move {inner : Nat} (h : s.Linked base depth place) (hsink : t.sink = s.sink)
    (hdepth : t.depth = inner) (hwalks : t.Walks (Pipeline.BuiltOf Valve.EndsOpen))
    (hevents : t.events = s.events) (hpending : t.pending = s.pending) :
    t.Linked base inner place where
  sink := hsink.trans h.sink
  depth := hdepth
  walks := hwalks
  chain := by
    obtain hnone | ⟨signal, hopen, hsignal⟩ := h.chain
    · exact .inl (hnone.of_eq hevents)
    · exact .inr ⟨signal, hopen.of_eq hevents, hpending.trans hsignal⟩

theorem Linked.of_eq (h : s.Linked base depth place) (hsink : t.sink = s.sink)
    (hframes : t.frames = s.frames) (hevents : t.events = s.events)
    (hpending : t.pending = s.pending) : t.Linked base depth place :=
  h.move hsink ((congrArg List.length hframes).trans h.depth) (h.walks.of_eq hframes) hevents
    hpending

theorem Linked.leavePipeline (h : s.Linked base (depth + 1) place)
    (failure : Option ValveFailure) : (s.leavePipeline failure).Linked base depth place := by
  refine h.move rfl ?_ (h.walks.leavePipeline failure) rfl rfl
  show s.frames.tail.length = depth
  rw [List.length_tail, show s.frames.length = depth + 1 from h.depth, Nat.add_sub_cancel]

theorem Linked.leaveValve (h : s.Linked base depth place) (i : Nat) (cursor : Option Nat)
    (failure : Option ValveFailure) : (s.leaveValve i cursor failure).Linked base depth place := by
  refine h.move rfl ?_ (h.walks.leaveValve i cursor failure) rfl rfl
  rw [← h.depth]
  cases hframes : s.frames with
  | nil => simp [Session.depth, Session.leaveValve, hframes]
  | cons frame outer => simp [Session.depth, frames_leaveValve _ _ _ hframes, hframes]

theorem Linked.settled (h : s.Linked base depth place) (hpending : s.pending = none) :
    s.LeavesOpen base none := by
  obtain hnone | ⟨signal, -, hsignal⟩ := h.chain
  · exact hnone
  · cases hpending.symm.trans hsignal

theorem Linked.idle (h : s.Linked base depth place) (hpending : s.pending = none) :
    s.Idle base depth :=
  ⟨⟨h.sink, h.depth, h.walks, .inl (h.settled hpending)⟩, hpending⟩

namespace Idle

theorem settled (h : s.Idle base depth) : s.LeavesOpen base none :=
  h.linked.settled h.pending

theorem of_eq (h : s.Idle base depth) (hsink : t.sink = s.sink) (hframes : t.frames = s.frames)
    (hevents : t.events = s.events) (hpending : t.pending = s.pending) : t.Idle base depth :=
  ⟨h.linked.of_eq hsink hframes hevents hpending, hpending.trans h.pending⟩

theorem log (h : s.Idle base depth) (severity : Severity) (message : String)
    (fields : List (String × Json)) : (s.log severity message fields).Idle base depth :=
  h.of_eq rfl rfl rfl rfl

theorem pend (h : s.Idle base depth) (place : Nat) (hsink : t.sink = s.sink)
    (hframes : t.frames = s.frames) (hevents : t.events = s.events) :
    t.Linked base depth place where
  sink := hsink.trans h.linked.sink
  depth := (congrArg List.length hframes).trans h.linked.depth
  walks := h.linked.walks.of_eq hframes
  chain := .inl (h.settled.of_eq hevents)

theorem emit (h : s.Idle base depth) {type : String} (htype : type ∉ Event.boundaryTypes)
    (data : Json) : (s.emit type data).Idle base depth where
  linked :=
    { sink := (s.sink_emit type data).trans h.linked.sink
      depth := (congrArg List.length (s.frames_emit type data)).trans h.linked.depth
      walks := h.linked.walks.of_eq (s.frames_emit type data)
      chain := .inl (h.settled.concat (events_emit h.linked.sink type data) (.other htype)) }
  pending := (s.pending_emit type data).trans h.pending

theorem begin (h : s.Idle base depth) (config : LoopConfig) (count : Nat) :
    (Loop.begin config count s).Idle base depth := by
  have counted : (s.setAttribute config.counter (.nat count)).Idle base depth :=
    h.of_eq rfl rfl rfl rfl
  exact ((counted.log ..).emit (by simp [Event.boundaryTypes]) _).of_eq rfl rfl rfl rfl

theorem catching (h : s.Idle base depth) (config : CatchConfig) (failure : ValveFailure) :
    (Guarded.catching config failure s).Idle base depth := by
  have dropped : s.dropBreak.Idle base depth := h.of_eq rfl rfl rfl h.pending.symm
  exact ((dropped.log ..).emit (by simp [Event.boundaryTypes]) _).of_eq rfl rfl rfl rfl

theorem enterPipeline (h : s.Idle base depth) {p : Pipeline} (hp : p.BuiltOf Valve.EndsOpen) :
    (s.enterPipeline p).Idle base (depth + 1) where
  linked :=
    { sink := h.linked.sink
      depth := congrArg (· + 1) h.linked.depth
      walks := h.linked.walks.enterPipeline hp
      chain := .inl h.settled }
  pending := h.pending

theorem enterValve (h : s.Idle base depth) {frame : Frame} {outer : List Frame} {i : Nat}
    (hframes : s.frames = frame :: outer) : (s.enterValve frame outer i).Idle base depth where
  linked := h.linked.move rfl
    ((congrArg List.length hframes).symm.trans h.linked.depth) (h.linked.walks.enterValve hframes)
    rfl rfl
  pending := h.pending

theorem leavePipeline (h : s.Idle base (depth + 1)) (failure : Option ValveFailure) :
    (s.leavePipeline failure).Idle base depth :=
  (h.linked.leavePipeline failure).idle h.pending

theorem leaveValve (h : s.Idle base depth) (i : Nat) (cursor : Option Nat)
    (failure : Option ValveFailure) : (s.leaveValve i cursor failure).Idle base depth :=
  ⟨h.linked.leaveValve i cursor failure, h.pending⟩

end Idle

theorem events_noteAll (s : Session) (entries : List String) :
    (s.noteAll entries).events = s.events ∧ (s.noteAll entries).sink = s.sink := by
  unfold noteAll
  induction entries generalizing s with
  | nil => exact ⟨rfl, rfl⟩
  | cons entry entries ih => exact ih (s.note entry)

theorem Idle.ask (h : s.Idle base depth) (condition : Condition) :
    (s.ask condition).2.Idle base depth := by
  obtain ⟨hevents, hsink⟩ := s.events_noteAll (condition.eval s.attributes).2
  exact h.of_eq hsink (s.frames_ask condition) hevents (s.pending_ask condition)

theorem events_requestBreak (s : Session) (signal : Signal) :
    (s.requestBreak signal).events = s.events ∧ (s.requestBreak signal).sink = s.sink := by
  cases signal with
  | label name =>
    simp only [requestBreak]
    split <;> exact ⟨rfl, rfl⟩
  | level count => exact ⟨rfl, rfl⟩
  | exit => exact ⟨rfl, rfl⟩

theorem Idle.request (h : s.Idle base depth) (place : Nat) (signal : Signal) :
    (s.requestBreak signal).Linked base depth place :=
  h.pend place (s.events_requestBreak signal).2 (Conduct.steady_continues.request s signal)
    (s.events_requestBreak signal).1

theorem absorbs_absorbBreak {signal : Signal} {label : Option String} (hsink : s.sink = .collect)
    (hrule : signal.atBoundary label = .absorb) :
    ∃ e, (s.absorbBreak signal label).events = s.events ++ [e] ∧ e.Absorbs s.depth signal := by
  refine ⟨_, events_emit (s := s.dropBreak.log ..) hsink _ _, rfl, depth_event .., ?_, label, ?_, hrule⟩
  all_goals
    rw [field?_event _ _ _ (by simp [positionKeys])]
    rfl

theorem passes_passBreak {signal next : Signal} {label : Option String} (hsink : s.sink = .collect)
    (hrule : signal.atBoundary label = .propagate next) :
    ∃ e, (s.passBreak signal next label).events = s.events ++ [e] ∧
      e.Passes s.depth signal next := by
  refine ⟨_, events_emit (s := s.dropBreak.log ..) hsink _ _, rfl, depth_event .., ?_, ?_, label, ?_,
    hrule⟩
  all_goals
    rw [field?_event _ _ _ (by simp [positionKeys])]
    rfl

/-- The pending signal goes on with the open chain of the walk that has just ended, if there is one. -/
theorem Linked.meets (h : s.Linked base depth (depth + 1)) (hdepth : 0 < depth) {signal : Signal}
    (hpending : s.pending = some signal) :
    ∃ opened, s.LeavesOpen base opened ∧ Event.Meets opened depth signal := by
  obtain hnone | ⟨passed, hopen, hpassed⟩ := h.chain
  · exact ⟨none, hnone, hdepth, .inl rfl⟩
  · obtain rfl : signal = passed := Option.some.inj (hpending.symm.trans hpassed)
    exact ⟨_, hopen, hdepth, .inr rfl⟩

theorem Linked.settle (h : s.Linked base depth (depth + 1)) (hdepth : 0 < depth)
    (label : Option String) : (s.settle label).2.Linked base depth depth := by
  cases hpending : s.pending with
  | none =>
    rw [settle_of_none hpending]
    exact (h.idle hpending).linked
  | some signal =>
    obtain ⟨opened, hopen, hmeets⟩ := h.meets hdepth hpending
    have hframes : (s.settle label).2.frames = s.frames := s.frames_settle label
    have hlength : (s.settle label).2.depth = depth :=
      (congrArg List.length hframes).trans h.depth
    have hwalks := h.walks.of_eq hframes
    cases hrule : signal.atBoundary label with
    | absorb =>
      rw [settle_of_absorb hpending hrule] at hlength hwalks ⊢
      obtain ⟨e, hevents, habsorbs⟩ := absorbs_absorbBreak h.sink hrule
      rw [h.depth] at habsorbs
      have ended := hopen.concat hevents (.absorbs hmeets habsorbs)
      exact ⟨(sink_emit ..).trans h.sink, hlength, hwalks, .inl ended⟩
    | propagate next =>
      rw [settle_of_propagate hpending hrule] at hlength hwalks ⊢
      obtain ⟨e, hevents, hpasses⟩ := passes_passBreak h.sink hrule
      rw [h.depth] at hpasses
      have further := hopen.concat hevents (.passes hmeets hpasses)
      exact ⟨(sink_emit ..).trans h.sink, hlength, hwalks, .inr ⟨next, further, rfl⟩⟩

end Session

/-- How a computation should end that began without a pending signal. What it answers may tell more. -/
inductive Ending.Linked {ε α : Type} (base : List Event) (depth : Nat)
    (kept : α → Session → Prop) : Ending ε α → Prop
  | answered {a : α} {t : Session} : kept a t → Linked base depth kept (.answered a t)
  | raised {e : ε} {t : Session} : t.Idle base depth → Linked base depth kept (.raised e t)
  | exhausted {t : Session} : t.LeavesOpen base none → Linked base depth kept (.exhausted t)

def WalkEnd.Leaves (base : List Event) (depth : Nat) (ended : WalkEnd) (t : Session) : Prop :=
  t.Linked base depth (depth + 1) ∧ (ended = .completed → t.pending = none)

def Walker.Links (walk : Walker) (p : Pipeline) : Prop :=
  ∀ (base : List Event) (depth : Nat) (s : Session), s.Idle base depth →
    ((walk p).run s).Linked base depth (WalkEnd.Leaves base depth)

section OwnWork

variable {ε α β : Type} {base : List Event} {depth : Nat} {s : Session} {walk : Walker}

theorem Ending.Linked.bind {kept : α → Session → Prop} {kept' : β → Session → Prop}
    {x : Run ε α} {f : α → Run ε β} (hx : (x.run s).Linked base depth kept)
    (hf : ∀ a t, kept a t → ((f a).run t).Linked base depth kept') :
    ((x >>= f).run s).Linked base depth kept' := by
  rw [Run.run_bind]
  generalize x.run s = ending at hx ⊢
  cases hx with
  | answered h => exact hf _ _ h
  | raised h => exact .raised h
  | exhausted h => exact .exhausted h

variable (base depth) in
def HandsBack (_ : Unit) (t : Session) : Prop :=
  t.Linked base depth depth

variable (base depth) in
def HandsBackSettled (settlement : Settlement) (t : Session) : Prop :=
  t.Linked base depth depth ∧ (settlement ≠ .propagated → t.pending = none)

theorem Walk.runBoundary_linked {p : Pipeline} (hwalk : walk.Links p) (hdepth : 0 < depth)
    (hs : s.Idle base depth) :
    ((runBoundary walk p).run s).Linked base depth (HandsBackSettled base depth) :=
  (hwalk base depth s hs).bind fun _ _ ht =>
    .answered ⟨ht.1.settle hdepth p.label, Session.pending_settle⟩

namespace Flat

theorem idle_linked {t : Session} (ht : t.Idle base depth) :
    (Ending.answered () t : Ending ε Unit).Linked base depth (HandsBack base depth) :=
  .answered ht.linked

theorem block_linked {p : Pipeline} (hwalk : walk.Links p) (hdepth : 0 < depth)
    (hs : s.Idle base depth) : ((block walk p).run s).Linked base depth (HandsBack base depth) :=
  (Walk.runBoundary_linked hwalk hdepth hs).bind fun _ _ ht => .answered ht.1

theorem asks_linked {condition : Option Condition} {f : Bool → Run ValveFailure α}
    {kept : α → Session → Prop} (hs : s.Idle base depth)
    (h : ∀ more t, t.Idle base depth → ((f more).run t).Linked base depth kept) :
    ((Loop.asksForMore condition >>= f).run s).Linked base depth kept := by
  cases condition with
  | none => exact h true s hs
  | some condition => exact h _ _ (hs.ask condition)

theorem iterate_linked {body : Pipeline} (hwalk : walk.Links body) (hdepth : 0 < depth)
    (condition : Option Condition) (config : LoopConfig) (steps count : Nat)
    (hs : s.Idle base depth) :
    ((iterate walk condition body config steps count).run s).Linked base depth
      (HandsBack base depth) := by
  induction steps generalizing count s with
  | zero => exact .exhausted hs.settled
  | succ steps ih =>
    refine asks_linked hs fun more t ht => ?_
    cases more with
    | false => exact idle_linked (ht.of_eq rfl rfl rfl rfl)
    | true =>
      rw [if_pos rfl]
      split
      · exact .raised (ht.of_eq rfl rfl rfl rfl)
      · refine (Walk.runBoundary_linked hwalk hdepth (ht.begin config count)).bind
          fun settlement u hu => ?_
        -- The loop goes on only after a walk that was completed, and then no chain is open.
        cases settlement with
        | completed => exact ih (count + 1) (hu.1.idle (hu.2 nofun))
        | absorbed => exact .answered hu.1
        | propagated => exact .answered hu.1

theorem breakWhen_linked (wanted : Bool) (signal : Signal) (hs : s.Idle base depth) :
    ((breakWhen wanted signal).run s).Linked base depth (HandsBack base depth) := by
  cases wanted with
  | true => exact .answered (hs.request depth signal)
  | false => exact idle_linked hs

theorem select_linked {f : Option Pipeline → Run ValveFailure Unit} {branches : List Branch}
    {otherwise : Option Pipeline} (hs : s.Idle base depth)
    (hnone : ∀ t : Session, t.Idle base depth →
      ((f none).run t).Linked base depth (HandsBack base depth))
    (hsome : ∀ p ∈ branches.map (·.block) ++ otherwise.toList, ∀ t : Session,
      t.Idle base depth → ((f (some p)).run t).Linked base depth (HandsBack base depth)) :
    ((Valve.work.select branches otherwise >>= f).run s).Linked base depth (HandsBack base depth) := by
  induction branches generalizing s with
  | nil =>
    cases otherwise with
    | none => exact hnone s hs
    | some p => exact hsome p List.mem_cons_self s hs
  | cons branch branches ih =>
    simp only [Valve.work.select, bind_assoc]
    rw [Run.run_bind, Run.run_act]
    have hasked := hs.ask branch.condition
    cases (s.ask branch.condition).1 with
    | true => exact hsome branch.block List.mem_cons_self _ hasked
    | false => exact ih hasked fun p hp => hsome p (List.mem_cons_of_mem _ hp)

end Flat

namespace Guarded

variable (base depth) in
def Ended : Except ValveFailure (Option Pipeline) → Session → Prop
  | .ok _, t => t.Linked base depth (depth + 1)
  | .error _, t => t.Idle base depth

theorem runBlock_linked {block : Pipeline} (hwalk : walk.Links block) (hs : s.Idle base depth) :
    ((runBlock walk block : Run ε (Except ValveFailure (Option Pipeline))).run s).Linked base depth
      (Ended base depth) := by
  have walked := hwalk base depth s hs
  rw [runBlock, Run.run_bind, Run.run_attempt]
  generalize (walk block).run s = ending at walked ⊢
  cases walked with
  | @answered ended t ht => cases ended <;> exact .answered ht.1
  | raised ht => exact .answered ht
  | exhausted ht => exact .exhausted ht

theorem runProtected_linked {tryBlock catchBlock : Option Pipeline} (config : CatchConfig)
    (htry : ∀ p ∈ tryBlock, walk.Links p) (hcatch : ∀ p ∈ catchBlock, walk.Links p)
    (hs : s.Idle base depth) :
    ((runProtected walk tryBlock catchBlock config :
      Run ε (Except ValveFailure (Option Pipeline))).run s).Linked base depth
      (Ended base depth) := by
  cases tryBlock with
  | none => exact .answered (hs.pend _ rfl rfl rfl)
  | some block =>
    refine (runBlock_linked (htry block rfl) hs).bind fun ending t ht => ?_
    cases ending with
    | ok origin => exact .answered ht
    | error failure =>
      cases catchBlock with
      | none => exact .answered ht
      | some handler => exact runBlock_linked (hcatch handler rfl) (ht.catching config failure)

end Guarded

namespace Flat

/-- A signal that is set aside and brought back is pending as it was. -/
theorem guarded_linked {tryBlock catchBlock : Option Pipeline} (config : CatchConfig)
    (htry : ∀ p ∈ tryBlock, walk.Links p) (hcatch : ∀ p ∈ catchBlock, walk.Links p)
    (hdepth : 0 < depth) (hs : s.Idle base depth) :
    ((guarded walk tryBlock catchBlock none config).run s).Linked base depth
      (HandsBack base depth) := by
  refine (Guarded.runProtected_linked config htry hcatch hs).bind fun ending t ht => ?_
  show ((conclude ending t.pending).run t.dropBreak).Linked base depth (HandsBack base depth)
  cases ending with
  | error failure => exact .raised (ht.of_eq rfl rfl rfl ht.pending.symm)
  | ok origin =>
    cases hpending : t.pending with
    | none => exact idle_linked ((ht.idle hpending).of_eq rfl rfl rfl hpending.symm)
    | some signal =>
      -- No last block comes between, so the chain that the walk has left open goes on here.
      have restored : ({ t.dropBreak with pending := some signal } : Session).Linked base depth
          (depth + 1) := ht.of_eq rfl rfl rfl hpending.symm
      exact .answered (restored.settle hdepth _)

theorem own_linked {v : Valve} (hwalk : ∀ p ∈ v.children, walk.Links p) (hv : v.EndsOpen)
    (steps : Nat) (hdepth : 0 < depth) (hs : s.Idle base depth) :
    ((work.own walk steps v).run s).Linked base depth (HandsBack base depth) := by
  cases v with
  | passThrough => exact idle_linked hs
  | setAttribute key value => exact idle_linked (hs.of_eq rfl rfl rfl rfl)
  | log severity message => exact idle_linked (hs.of_eq rfl rfl rfl rfl)
  | record name counter => exact idle_linked (hs.of_eq rfl rfl rfl rfl)
  | failing name message => exact .raised hs
  | scripted name script => exact idle_linked hs
  | breakWith signal => exact .answered (hs.request depth signal)
  | exit => exact .answered (hs.request depth .exit)
  | breakIf condition signal => exact breakWhen_linked _ signal (hs.ask condition)
  | breakUnless condition signal => exact breakWhen_linked _ signal (hs.ask condition)
  | loop body config =>
    exact iterate_linked (hwalk body List.mem_cons_self) hdepth none config steps 0 hs
  | whileLoop condition body config =>
    exact iterate_linked (hwalk body List.mem_cons_self) hdepth (some condition) config steps 0 hs
  | ifThen condition p =>
    simp only [work.own, Run.run_bind, Run.run_act]
    cases (s.ask condition).1 with
    | true => exact block_linked (hwalk p List.mem_cons_self) hdepth (hs.ask condition)
    | false => exact idle_linked (hs.ask condition)
  | choose branches otherwise =>
    exact select_linked hs (fun t ht => idle_linked ht) fun p hp t ht =>
      block_linked (hwalk p hp) hdepth ht
  | sub p => exact block_linked (hwalk p List.mem_cons_self) hdepth hs
  | guarded tryBlock catchBlock finallyBlock config =>
    obtain rfl := hv _ _ _ _ rfl
    refine guarded_linked config (fun p hp => hwalk p ?_) (fun p hp => hwalk p ?_) hdepth hs
    · simp [Valve.children, Option.mem_def.mp hp]
    · simp [Valve.children, Option.mem_def.mp hp]

end Flat

end OwnWork

section Walks

variable {base : List Event} {depth : Nat} {s : Session} {start : Starter}

def Starter.Links (start : Starter) : Prop :=
  ∀ v : Valve, v.BuiltOf Valve.EndsOpen → ∀ (base : List Event) (depth : Nat) (s : Session),
    0 < depth → s.Idle base depth → ((start v).run s).Linked base depth (HandsBack base depth)

theorem Walk.proceed_linked (hstart : start.Links) (hs : s.Linked base depth depth) :
    ((proceed start).run s).Linked base depth (HandsBack base depth) := by
  have proceeding := proceed_proceeding start s
  generalize (proceed start).run s = ending at proceeding ⊢
  cases proceeding with
  | waits _ => exact .answered hs
  | outside _ _ => exact .answered (hs.of_eq rfl rfl rfl rfl)
  | again _ _ _ => exact .answered (hs.of_eq rfl rfl rfl rfl)
  | ends _ _ _ _ => exact .answered hs
  | @starts frame outer v hpending hframes _ hvalve =>
    have hv : v.BuiltOf Valve.EndsOpen :=
      (hs.walks.innermost hframes).valve (List.mem_of_getElem? hvalve)
    have hdepth : 0 < depth := by
      rw [← hs.depth, Session.depth, hframes, List.length_cons]
      exact Nat.succ_pos _
    have started := hstart v hv base depth (s.enterValve frame outer frame.next) hdepth
      ((hs.idle hpending).enterValve hframes)
    rw [Run.run_afterwards]
    generalize (start v).run (s.enterValve frame outer frame.next) = ending at started ⊢
    cases started with
    | answered ht => exact .answered (ht.leaveValve ..)
    | raised ht => exact .raised (ht.leaveValve ..)
    | exhausted ht => exact .exhausted ht

theorem Walk.runPipeline_links (hstart : start.Links) {p : Pipeline}
    (hp : p.BuiltOf Valve.EndsOpen) : Walker.Links (runPipeline start) p := by
  intro base depth s hs
  have proceeded := proceed_linked hstart (hs.enterPipeline hp).linked
  have ended {e : WalkEnd} {t : Session} (h : (runPipeline start p).run s = .answered e t) :
      e = .completed → t.pending = none := by
    rintro rfl
    obtain ⟨-, hnone⟩ | ⟨hunwound, -⟩ := pending_runPipeline h
    · exact hnone
    · cases hunwound
  simp only [runPipeline, Run.run_bind, Run.run_update, Run.run_afterwards, Run.run_read] at ended ⊢
  generalize (proceed start).run (s.enterPipeline p) = ending at proceeded ended ⊢
  cases proceeded with
  | answered ht => exact .answered ⟨ht.leavePipeline none, ended rfl⟩
  | raised ht => exact .raised (ht.leavePipeline _)
  | exhausted ht => exact .exhausted ht

theorem Valve.run_links (steps : Nat) : Starter.Links (run steps) := by
  induction steps with
  | zero => exact fun v hv base depth s hdepth hs => .exhausted hs.settled
  | succ steps ih =>
    intro v hv base depth s hdepth hs
    cases hv with
    | intro hscript hkind hchildren =>
      rw [show run (steps + 1) v = v.work (run steps) steps from rfl,
        Valve.work_eq_own _ steps hscript]
      have owned := Flat.own_linked (fun p hp => Walk.runPipeline_links ih (hchildren p hp)) hkind
        steps hdepth hs
      exact owned.bind fun _ _ ht => Walk.proceed_linked ih ht

end Walks

namespace Session

variable {base : List Event} {s : Session}

theorem Linked.unwind {signal : Signal} (h : s.Linked base 0 1) (hpending : s.pending = some signal) :
    (Walk.reportUnwound signal s).LeavesOpen base none := by
  obtain ⟨e, hevents, htype, hsignal⟩ := Walk.events_reportUnwound signal h.sink
  obtain hnone | ⟨passed, hopen, hpassed⟩ := h.chain
  · exact hnone.concat hevents (.other (by simp [htype, Event.boundaryTypes]))
  · obtain rfl : signal = passed := Option.some.inj (hpending.symm.trans hpassed)
    exact hopen.concat hevents (.unwinds ⟨htype, hsignal⟩)

theorem invoke_settled (steps : Nat) (hp : s.pipeline.BuiltOf Valve.EndsOpen)
    (hframes : s.frames = []) (hpending : s.pending = none) (hsink : s.sink = .collect) :
    (s.invoke steps).session.LeavesOpen s.events none := by
  have begun : ({ s with invoked := true } : Session).Idle s.events 0 :=
    ⟨⟨hsink, congrArg List.length hframes, fun f hf => absurd hf (hframes ▸ List.not_mem_nil),
      .inl ⟨[], (List.append_nil _).symm, .nil⟩⟩, hpending⟩
  have launched : (Walk.launched s).Idle s.events 0 :=
    begun.emit (by simp [Event.boundaryTypes]) _
  have walked := Walk.runPipeline_links (Valve.run_links steps) hp s.events 0 _ launched
  have invoking := Walk.invoke_invoking (ε := Empty) (Valve.run steps) s
  unfold invoke
  generalize (Walk.invoke (Walk.runPipeline (Valve.run steps))).run s = ending at invoking ⊢
  cases invoking with
  | refused _ => exact begun.settled
  | completed _ hrun hnone =>
    rw [hrun] at walked
    cases walked with
    | answered ht =>
      exact ((ht.1.idle hnone).emit (by simp [Event.boundaryTypes]) _).settled
  | unwound _ hrun hsome =>
    rw [hrun] at walked
    cases walked with
    | answered ht => exact ht.1.unwind hsome
  | failed _ hrun =>
    rw [hrun] at walked
    cases walked with
    | raised ht => exact ((ht.log ..).emit (by simp [Event.boundaryTypes]) _).settled
  | exhausted _ hrun =>
    rw [hrun] at walked
    cases walked with
    | exhausted ht => exact ht

end Session

/-- In a run of built-in valves without last blocks, begun outside of any walk and with no signal pending,
the event of a boundary that passes a signal on begins a chain: the next event is that of the boundary one
scope further out, with the signal as it was passed on, and so on to the boundary that absorbs it or, past
the outermost one, to the event that tells of the unwound run. A count drops by one at each event of a
chain, and a label or an exit stays what it is; an exit is never absorbed, and other signals are only
where their count is used up or the label of the scope is theirs. -/
theorem boundaries_chained (steps : Nat) {s : Session} (hp : s.pipeline.BuiltOf Valve.EndsOpen)
    (hframes : s.frames = []) (hpending : s.pending = none) (hsink : s.sink = .collect) :
    ∃ news, (s.invoke steps).session.events = s.events ++ news ∧
      (∀ before e after, news = before ++ e :: after → e.type = "boundary.propagated" →
        ∃ depth signal next, 0 < depth ∧ e.Passes depth signal next ∧
          Event.Chained depth next after ∧
          ((∃ count, signal = .level (count + 1) ∧ next = .level count) ∨
            (∃ name, signal = .label name ∧ next = .label name) ∨
            (signal = .exit ∧ next = .exit ∧ ∃ passed last rest,
              after = passed ++ last :: rest ∧ last.Unwinds .exit ∧
                ∀ f ∈ passed, ∃ depth, f.Passes depth .exit .exit))) ∧
      ∀ e ∈ news, e.type = "boundary.absorbed" → ∃ depth signal, e.Absorbs depth signal ∧
        (signal = .level 0 ∨
          ∃ name, signal = .label name ∧ e.field? "label" = some (.string name)) := by
  obtain ⟨news, hnews, hlinks⟩ := Session.invoke_settled steps hp hframes hpending hsink
  refine ⟨news, hnews, ?_, ?_⟩
  · rintro before e after rfl htype
    obtain ⟨depth, signal, next, hdepth, hpasses, hchained⟩ := hlinks.chained_of_passed htype
    refine ⟨depth, signal, next, hdepth, hpasses, hchained, ?_⟩
    obtain hlevel | hlabel | ⟨rfl, rfl⟩ := hpasses.signals
    · exact .inl hlevel
    · exact .inr (.inl hlabel)
    · exact .inr (.inr ⟨rfl, rfl, hchained.exit⟩)
  · intro e he htype
    obtain ⟨before, after, rfl⟩ := List.append_of_mem he
    obtain ⟨depth, signal, habsorbs⟩ := hlinks.absorbs_of_absorbed htype
    exact ⟨depth, signal, habsorbs, habsorbs.signals⟩

private def twofold : Pipeline :=
  ⟨none, [.guarded (some ⟨none, [.sub ⟨none, [.breakWith (.level 2)]⟩]⟩) none none {}]⟩

private theorem twofold_builtOf : twofold.BuiltOf Valve.EndsOpen := by
  have breaks : (Valve.breakWith (.level 2)).BuiltOf Valve.EndsOpen := .intro nofun nofun nofun
  have block : (⟨none, [.breakWith (.level 2)]⟩ : Pipeline).BuiltOf Valve.EndsOpen :=
    .intro (List.forall_mem_singleton.mpr breaks)
  have inner : (Valve.sub ⟨none, [.breakWith (.level 2)]⟩).BuiltOf Valve.EndsOpen :=
    .intro nofun nofun (List.forall_mem_singleton.mpr block)
  have tried : (⟨none, [.sub ⟨none, [.breakWith (.level 2)]⟩]⟩ : Pipeline).BuiltOf
      Valve.EndsOpen := .intro (List.forall_mem_singleton.mpr inner)
  refine .intro (List.forall_mem_singleton.mpr (.intro nofun ?_ ?_))
  · rintro tryBlock catchBlock finallyBlock config ⟨⟩
    rfl
  · exact List.forall_mem_singleton.mpr tried

theorem boundaries_chained_of_twofold :
    let events := ((Session.start twofold .collect {}).invoke 4).session.events
    events.map (·.type) = ["invocation.started", "boundary.propagated", "boundary.propagated",
        "invocation.unwound"] ∧
      ∃ first passed rest depth signal next, events = first :: passed :: rest ∧
        passed.Passes depth signal next ∧ Event.Chained depth next rest := by
  intro events
  obtain ⟨news, hnews, hpassed, -⟩ := boundaries_chained 4
    (s := Session.start twofold .collect {}) twofold_builtOf rfl rfl rfl
  obtain rfl : events = news := hnews
  have htypes : events.map (·.type) = ["invocation.started", "boundary.propagated",
    "boundary.propagated", "invocation.unwound"] := rfl
  obtain ⟨first, others, hevents, -, hothers⟩ := List.map_eq_cons_iff.mp htypes
  obtain ⟨passed, rest, rfl, htype, -⟩ := List.map_eq_cons_iff.mp hothers
  obtain ⟨depth, signal, next, -, hpasses, hchained, -⟩ := hpassed [first] passed rest hevents htype
  exact ⟨htypes, first, passed, rest, depth, signal, next, hevents, hpasses, hchained⟩

end ValvePipeline
