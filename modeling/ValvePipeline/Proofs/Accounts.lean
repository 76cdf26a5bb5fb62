import ValvePipeline.Proofs.PairedWork
import ValvePipeline.Proofs.Reports

/-!
What runs account for. Two runs may be the same but for what they report, for how many walks they begin and
for the conditions that they ask. A comparison of these accounts that lasts when both go on with the same is
kept by every step that the engine takes.
-/

set_option autoImplicit false
set_option relaxedAutoImplicit false

namespace ValvePipeline

/-- What a run has reported, how many walks it has begun and which conditions it has asked. -/
@[ext] structure Account where
  events : List Event := []
  walks : Nat := 0
  asked : List (Condition × Attributes × Bool) := []

namespace Account

def add (a b : Account) : Account :=
  ⟨a.events ++ b.events, a.walks + b.walks, a.asked ++ b.asked⟩

/-- How the accounts of two runs compare. What is added to both of them makes no difference. -/
structure Comparison where
  /-- The sink of the runs. -/
  sink : Sink
  holds : Account → Account → Prop
  add {a b : Account} (c : Account) : holds a b → holds (a.add c) (b.add c)

def Comparison.flip (x : Comparison) : Comparison where
  sink := x.sink
  holds a b := x.holds b a
  add := x.add

end Account

def Mark.asked? : Mark → Option (Condition × Attributes × Bool)
  | .ask condition attributes answer => some (condition, attributes, answer)
  | _ => none

def Mark.isEntry : Mark → Bool
  | .enterPipeline _ => true
  | _ => false

def Mark.account (m : Mark) : Account where
  walks := if m.isEntry then 1 else 0
  asked := m.asked?.toList

namespace Session

def asked (s : Session) : List (Condition × Attributes × Bool) :=
  s.trail.filterMap fun m => m.mark.asked?

def walked (s : Session) : Nat :=
  s.trail.countP fun m => m.mark.isEntry

def account (s : Session) : Account :=
  ⟨s.events, s.walked, s.asked⟩

theorem account_mark (s : Session) (m : Mark) : (s.mark m).account = s.account.add m.account := by
  ext1
  · exact (List.append_nil _).symm
  · simp [account, walked, Account.add, Mark.account, List.countP_cons]
  · simp only [account, asked, Account.add, Mark.account, trail_mark, List.filterMap_append,
      List.filterMap_cons, List.filterMap_nil]
    cases m.asked? <;> rfl

theorem asked_mark (s : Session) (m : Mark) : (s.mark m).asked = s.asked ++ m.account.asked :=
  congrArg Account.asked (s.account_mark m)

theorem account_mark_of_plain {s : Session} {m : Mark} (h : m.account = {}) :
    (s.mark m).account = s.account := by
  rw [account_mark, h]
  simp [Account.add]

theorem account_report (s : Session) (event : Event) :
    account { s with transcript := { s.transcript with events := s.transcript.events.push event } } =
      s.account.add { events := [event] } := by
  simp [account, events, walked, asked, trail, Account.add]

theorem account_emit {s : Session} (h : s.sink = .collect) (type : String) (data : Json) :
    (s.emit type data).account = s.account.add { events := [s.event type data] } := by
  rw [← account_report, emit, h]
  rfl

theorem account_emit_of_ne {s : Session} (h : s.sink ≠ .collect) (type : String) (data : Json) :
    (s.emit type data).account = s.account := by
  unfold emit
  split
  · rfl
  · contradiction
  · rfl

theorem exists_emit_eq (s : Session) (type : String) (data : Json) : ∃ events lines,
    s.emit type data = { s with transcript := { s.transcript with events, log := lines } } := by
  unfold emit
  split <;> exact ⟨_, _, rfl⟩

theorem length_leaveValve (s : Session) (i : Nat) (cursor : Option Nat)
    (failure : Option ValveFailure) :
    (s.leaveValve i cursor failure).frames.length = s.frames.length := by
  unfold leaveValve
  cases h : s.frames <;> simp [mark]

/-- The relation outlives single changes of both sessions, and of the walks under way it compares only the
number, of marks only what they account for. -/
structure Shallow (R : Session → Session → Prop) : Prop where
  identity {s t : Session} : R s t → t.identity = s.identity
  label {s t : Session} : R s t → t.pipeline.label = s.pipeline.label
  attributes {s t : Session} : R s t → t.attributes = s.attributes
  pending {s t : Session} : R s t → t.pending = s.pending
  depth {s t : Session} : R s t → t.depth = s.depth
  invoked {s t : Session} : R s t → t.invoked = s.invoked
  sink {s t : Session} : R s t → t.sink = s.sink
  relog {s t : Session} (lines lines' : Array LogLine) : R s t →
    R { s with transcript := { s.transcript with log := lines } }
      { t with transcript := { t.transcript with log := lines' } }
  note {s t : Session} (entry : String) : R s t → R (s.note entry) (t.note entry)
  set {s t : Session} (key : String) (value : Json) :
    R s t → R (s.setAttribute key value) (t.setAttribute key value)
  pend {s t : Session} (pending : Option Signal) : R s t → R { s with pending } { t with pending }
  report {s t : Session} (event : Event) : s.sink = .collect → R s t →
    R { s with transcript := { s.transcript with events := s.transcript.events.push event } }
      { t with transcript := { t.transcript with events := t.transcript.events.push event } }
  invoke {s t : Session} : R s t → R { s with invoked := true } { t with invoked := true }
  rewalk {s t : Session} {frames frames' : List Frame} : frames'.length = frames.length → R s t →
    R { s with frames } { t with frames := frames' }
  mark {s t : Session} {m n : Mark} : n.account = m.account → R s t → R (s.mark m) (t.mark n)

namespace Shallow

variable {R : Session → Session → Prop} {s t : Session}

theorem displayName (hR : Shallow R) (h : R s t) :
    t.pipeline.displayName = s.pipeline.displayName := by
  rw [Pipeline.displayName, Pipeline.displayName, hR.label h]

theorem close (hR : Shallow R) : Close R where
  depth := hR.depth
  pending := hR.pending
  sink := hR.sink
  locate data h := by
    cases data <;> simp only [locate, position, hR.identity h, hR.displayName h, hR.depth h]
  relog := hR.relog
  note := hR.note
  set := hR.set
  pend := hR.pend
  report := hR.report
  asked _ _ h := hR.mark (by rw [hR.attributes h]) h
  iterated _ h := hR.mark rfl h
  requested _ h := hR.mark rfl h

theorem ask (hR : Shallow R) (h : R s t) (condition : Condition) :
    (t.ask condition).1 = (s.ask condition).1 ∧ R (s.ask condition).2 (t.ask condition).2 :=
  hR.close.lasting.ask h (by rw [hR.attributes h])

theorem enterPipeline (hR : Shallow R) (h : R s t) (p q : Pipeline) :
    R (s.enterPipeline p) (t.enterPipeline q) := by
  have hdepth : (Frame.mk q none none :: t.frames).length =
      (Frame.mk p none none :: s.frames).length := congrArg Nat.succ (hR.depth h)
  exact hR.mark rfl (hR.rewalk hdepth h)

theorem leavePipeline (hR : Shallow R) (h : R s t) (failure : Option ValveFailure) :
    R (s.leavePipeline failure) (t.leavePipeline failure) := by
  have hdepth : t.frames.tail.length = s.frames.tail.length := by
    rw [List.length_tail, List.length_tail, show t.frames.length = s.frames.length from hR.depth h]
  exact hR.mark rfl (hR.rewalk hdepth h)

theorem enterValve (hR : Shallow R) (h : R s t) {f g : Frame} {outer others : List Frame}
    (hs : s.frames = f :: outer) (ht : t.frames = g :: others) (i j : Nat) :
    R (s.enterValve f outer i) (t.enterValve g others j) := by
  have hdepth : t.frames.length = s.frames.length := hR.depth h
  rw [hs, ht] at hdepth
  have begun : R { s with frames := { f with cursor := some i, reached := some i } :: outer }
      { t with frames := { g with cursor := some j, reached := some j } :: others } :=
    hR.rewalk hdepth h
  exact hR.mark rfl begun

theorem leaveValve (hR : Shallow R) (h : R s t) (i j : Nat) (cursor cursor' : Option Nat)
    (failure : Option ValveFailure) :
    R (s.leaveValve i cursor failure) (t.leaveValve j cursor' failure) := by
  have hdepth : (t.leaveValve j cursor' failure).frames.length =
      (s.leaveValve i cursor failure).frames.length := by
    rw [length_leaveValve, length_leaveValve]
    exact hR.depth h
  have left : R { s with frames := (s.leaveValve i cursor failure).frames }
      { t with frames := (t.leaveValve j cursor' failure).frames } := hR.rewalk hdepth h
  exact hR.mark rfl left

/-- No step of the engine tells the two sessions apart. -/
theorem parallel (hR : Shallow R) : Parallel fun _ _ x y => x.Along R y where
  pure _ := fun _ _ h => .answered h
  raise _ := fun _ _ h => .raised h
  outOfSteps _ := fun _ _ _ => .cut
  bind := .bind
  attempt := .attempt
  log _ _ _ := .update fun _ _ h => hR.relog _ _ h
  record name counter := .update fun s t h => by
    rw [hR.attributes h]
    exact hR.note _ h
  set key value := .update fun _ _ h => hR.set key value h
  ask condition := .act fun _ _ h => hR.ask h condition
  request signal := .update fun _ _ h => hR.close.requestBreak h signal
  settle label := .act fun _ _ h => hR.close.settle h label
  setAside := .act fun _ _ h => ⟨hR.pending h, hR.pend none h⟩
  bringBack signal := .update fun _ _ h => hR.pend (some signal) h
  begin config count := .update fun _ _ h => hR.close.lasting.begin h config count
  catching config failure := .update fun _ _ h => hR.close.lasting.catching h config failure

theorem runPipeline (hR : Shallow R) {start start' : Starter} {p q : Pipeline}
    (h : ((Walk.proceed start).run (s.enterPipeline p)).Matches R
      ((Walk.proceed start').run (t.enterPipeline q))) :
    ((Walk.runPipeline start p).run s).Matches R ((Walk.runPipeline start' q).run t) := by
  simp only [Walk.runPipeline, Run.run_bind, Run.run_update, Run.run_afterwards, Run.run_read]
  generalize (Walk.proceed start).run (s.enterPipeline p) = ending,
    (Walk.proceed start').run (t.enterPipeline q) = ending' at h ⊢
  cases h with
  | answered hafter =>
    have left := hR.leavePipeline hafter none
    simp only [hR.pending left]
    exact .answered left
  | raised hafter => exact .raised (hR.leavePipeline hafter _)
  | cut => exact .cut

theorem leavesValve (hR : Shallow R) {x y : Run ValveFailure Unit}
    (h : (x.run s).Matches R (y.run t)) (i j : Nat) (cursor cursor' : Option Nat) :
    ((x.afterwards (Session.leaveValve i cursor)).run s).Matches R
      ((y.afterwards (Session.leaveValve j cursor')).run t) := by
  rw [Run.run_afterwards, Run.run_afterwards]
  generalize x.run s = ending, y.run t = ending' at h ⊢
  cases h with
  | answered hafter => exact .answered (hR.leaveValve hafter ..)
  | raised hafter => exact .raised (hR.leaveValve hafter ..)
  | cut => exact .cut

/-- Whole runs go along with each other if the walks of their pipelines do. -/
theorem invokes (hR : Shallow R) {ε : Type} {walk walk' : Walker} (h : R s t)
    (hwalk : (walk s.pipeline).Along R (walk' t.pipeline)) :
    ((Walk.invoke walk : Run ε (Except RunFailure Outcome)).run s).Matches R
      ((Walk.invoke walk').run t) := by
  have told (severity : Severity) (message : String) (fields : List (String × Json))
      (type : String) (data : Json) :
      (Run.update fun s => (s.log severity message fields).emit type data : Run ε Unit).Along R
        (Run.update fun s => (s.log severity message fields).emit type data) :=
    .update fun _ _ h => hR.close.emit (hR.relog _ _ h) type data
  have answer (a : Except RunFailure Outcome) : (pure a : Run ε _).Along R (pure a) :=
    hR.parallel.pure a
  simp only [Walk.invoke, Run.run_bind, Run.run_read, id_eq, hR.invoked h, hR.identity h,
    hR.displayName h]
  split
  · exact .answered h
  refine Run.Along.bind (.update fun _ _ h => hR.close.emit (hR.invoke h) ..) (fun _ => ?_) s t h
  refine .bind hwalk.attempt fun ended => ?_
  cases ended with
  | error failure => exact .bind (told _ _ _ _ _) fun _ => answer _
  | ok ended =>
    cases ended with
    | completed => exact .bind (.update fun _ _ h => hR.close.emit h ..) fun _ => answer _
    | unwound =>
      refine .bind (.read fun _ _ h => hR.pending h) fun pending => ?_
      exact .bind (told _ _ _ _ _) fun _ => answer _

end Shallow

/-- The sessions of two runs whose accounts compare. The logs and the places of valves may differ, and all
else is the same. -/
structure Abreast (x : Account.Comparison) (s t : Session) : Prop where
  identity : t.identity = s.identity
  label : t.pipeline.label = s.pipeline.label
  attributes : t.attributes = s.attributes
  pending : t.pending = s.pending
  depth : t.depth = s.depth
  invoked : t.invoked = s.invoked
  journal : t.transcript.journal = s.transcript.journal
  sink : s.sink = x.sink
  sink_eq : t.sink = s.sink
  account : x.holds s.account t.account

namespace Abreast

variable {x : Account.Comparison} {s t : Session}

theorem symm (h : s.Abreast x t) : t.Abreast x.flip s where
  identity := h.identity.symm
  label := h.label.symm
  attributes := h.attributes.symm
  pending := h.pending.symm
  depth := h.depth.symm
  invoked := h.invoked.symm
  journal := h.journal.symm
  sink := h.sink_eq.trans h.sink
  sink_eq := h.sink_eq.symm
  account := h.account

theorem remark (h : s.Abreast x t) {m n : Mark}
    (told : x.holds (s.account.add m.account) (t.account.add n.account)) :
    (s.mark m).Abreast x (t.mark n) :=
  { h with
    journal := h.journal
    account := by
      rw [account_mark, account_mark]
      exact told }

theorem shallow (x : Account.Comparison) : Shallow (Abreast x) where
  identity h := h.identity
  label h := h.label
  attributes h := h.attributes
  pending h := h.pending
  depth h := h.depth
  invoked h := h.invoked
  sink h := h.sink_eq
  relog _ _ h := { h with
    journal := h.journal
    account := h.account }
  note entry h := { h with
    journal := congrArg (·.push entry) h.journal
    account := h.account }
  set key value h := { h with
    attributes := congrArg (·.set key value) h.attributes
    account := h.account }
  pend _ h := { h with
    pending := rfl
    account := h.account }
  report event _ h := { h with
    journal := h.journal
    account := by
      rw [account_report, account_report]
      exact x.add _ h.account }
  invoke h := { h with
    invoked := rfl
    account := h.account }
  rewalk hdepth h := { h with
    depth := hdepth
    account := h.account }
  mark hmn h := h.remark (hmn ▸ x.add _ h.account)

end Abreast

end Session

end ValvePipeline
