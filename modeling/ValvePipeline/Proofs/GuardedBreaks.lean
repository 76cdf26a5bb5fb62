import ValvePipeline.Proofs.Chains
import ValvePipeline.Proofs.Substitution

/-!
Guarded breaks, spelled out. A valve that breaks if its condition holds does what a branch does whose block
breaks, if that break counts one scope more: the boundary of the block turns its signal into that of the
guarded break, and reports so. And to break unless a condition holds is to break if its negation does.
-/

set_option autoImplicit false
set_option relaxedAutoImplicit false

namespace ValvePipeline

open Conduct (nested_covers)

namespace Signal

/-- The signal that comes out of an unlabelled scope as this one. -/
def deepened : Signal → Signal
  | .level count => .level (count + 1)
  | signal => signal

theorem atBoundary_deepened (signal : Signal) :
    signal.deepened.atBoundary none = .propagate signal := by
  cases signal <;> simp [deepened, atBoundary]

def block (signal : Signal) : Pipeline :=
  ⟨none, [.breakWith signal.deepened]⟩

end Signal

/-- The first valve is a guarded break, and the second one the branch that spells it out. -/
def Valve.Branches (c : Condition) (signal : Signal) (v w : Valve) : Prop :=
  v = .breakIf c signal ∧ w = .ifThen c signal.block

/-- The first valve breaks unless the condition holds, and the second one if its negation does. -/
def Valve.Negates (c : Condition) (signal : Signal) (v w : Valve) : Prop :=
  v = .breakUnless c signal ∧ w = .breakIf (.not c) signal

def Event.LeavesBlock (signal : Signal) (e : Event) : Prop :=
  (∃ depth, e.Passes depth signal.deepened signal) ∧ e.field? "label" = some .null

/-- In the second account there are further walks, and for each of them the event that its block was left. -/
structure Account.Detours (signal : Signal) (sink : Sink) (a b : Account) : Prop where
  events : Woven (Event.LeavesBlock signal) a.events b.events
  reported : sink = .collect → b.events.length + a.walks = a.events.length + b.walks
  unreported : sink ≠ .collect → b.events = a.events
  asked : b.asked = a.asked

theorem Account.Detours.add {signal : Signal} {sink : Sink} {a b : Account} (c : Account)
    (h : Detours signal sink a b) : Detours signal sink (a.add c) (b.add c) where
  events := h.events.append (.refl _ c.events)
  reported hsink := by
    have hreported := h.reported hsink
    simp only [Account.add, List.length_append]
    omega
  unreported hsink := congrArg (· ++ c.events) (h.unreported hsink)
  asked := congrArg (· ++ c.asked) h.asked

def Account.detours (signal : Signal) (sink : Sink) : Account.Comparison where
  sink
  holds := Detours signal sink
  add := Detours.add

theorem Account.Detours.put {signal : Signal} {sink : Sink} {a b : Account} {e : Event}
    (h : Detours signal sink a b) (hsink : sink = .collect) (he : e.LeavesBlock signal) :
    Detours signal sink a (b.add { events := [e], walks := 1 }) where
  events := h.events.more fun f hf => List.mem_singleton.mp hf ▸ he
  reported hsink := by
    have hreported := h.reported hsink
    simp only [Account.add, List.length_append, List.length_singleton]
    omega
  unreported hother := absurd hsink hother
  asked := (List.append_nil _).trans h.asked

theorem Account.Detours.skip {signal : Signal} {sink : Sink} {a b : Account}
    (h : Detours signal sink a b) (hsink : sink ≠ .collect) :
    Detours signal sink a (b.add { walks := 1 }) where
  events := h.events.more fun _ he => absurd he List.not_mem_nil
  reported hcollect := absurd hcollect hsink
  unreported hsink := (List.append_nil _).trans (h.unreported hsink)
  asked := (List.append_nil _).trans h.asked

namespace Session

def leftBlock (signal : Signal) (s : Session) : Session :=
  let begun := (s.enterPipeline signal.block).enterValve { pipeline := signal.block } s.frames 0
  ((begun.requestBreak signal.deepened).leaveValve 0 none none).leavePipeline none

def detour (signal : Signal) (s : Session) : Session :=
  (s.leftBlock signal).passBreak signal.deepened signal none

variable {s : Session}

theorem run_proceed_block (start : Starter) (signal : Signal) (h : s.pending = none) :
    (Walk.proceed start).run (s.enterPipeline signal.block) =
      ((start (.breakWith signal.deepened)).afterwards (leaveValve 0 none)).run
        ((s.enterPipeline signal.block).enterValve { pipeline := signal.block } s.frames 0) :=
  Walk.run_proceed_of_valve start (s := s.enterPipeline signal.block) h rfl rfl rfl

theorem run_block (signal : Signal) (steps : Nat) (h : s.pending = none) :
    (Flat.block (Walk.runPipeline (Valve.run (steps + 1))) signal.block).run s =
      .answered () (s.detour signal) := by
  have broke (u : Session) : (Valve.run (steps + 1) (.breakWith signal.deepened)).run u =
      .answered () (u.requestBreak signal.deepened) := rfl
  have settled : (s.leftBlock signal).settle none = (.propagated, s.detour signal) :=
    settle_of_propagate rfl signal.atBoundary_deepened
  simp only [Flat.block, Walk.runBoundary, Walk.runPipeline, Walk.settle, Run.run_bind, Run.run_update,
    Run.run_afterwards, Run.run_read, Run.run_act, Run.run_pure, run_proceed_block _ signal h, broke]
  exact congrArg (Ending.answered () ·.2) settled

theorem exists_run_block_zero (signal : Signal) (h : s.pending = none) : ∃ u,
    (Flat.block (Walk.runPipeline (Valve.run 0)) signal.block).run s = .exhausted u := by
  have cut (u : Session) : (Valve.run 0 (.breakWith signal.deepened)).run u = .exhausted u := rfl
  simp only [Flat.block, Walk.runBoundary, Walk.runPipeline, Run.run_bind, Run.run_update,
    Run.run_afterwards, run_proceed_block _ signal h, cut]
  exact ⟨_, rfl⟩

theorem exists_leftBlock_eq (signal : Signal) (s : Session) : ∃ lines trail, s.leftBlock signal =
    { s with
      pending := some signal.deepened
      transcript := { s.transcript with log := lines, trail } } := by
  obtain ⟨lines, hbroken⟩ := exists_requestBreak_eq
    ((s.enterPipeline signal.block).enterValve { pipeline := signal.block } s.frames 0) signal.deepened
  simp only [leftBlock, hbroken]
  exact ⟨_, _, rfl⟩

theorem exists_passBreak_eq (s : Session) (signal next : Signal) (label : Option String) :
    ∃ events lines, s.passBreak signal next label =
      { s with
        pending := some next
        transcript := { s.transcript with events, log := lines } } := by
  obtain ⟨events, lines, htold⟩ := exists_emit_eq
    (s.dropBreak.log .debug "Break propagated past boundary" _) "boundary.propagated"
      (.ofFields [("signal", signal.toJson), ("next", next.toJson), ("label", labelJson label)])
  exact ⟨events, lines, congrArg (fun u : Session => { u with pending := some next }) htold⟩

/-- After the boundary the signal is the one that a guarded break would have left. -/
theorem exists_detour_eq (signal : Signal) (s : Session) : ∃ events lines trail, s.detour signal =
    { s with
      pending := some signal
      transcript := { s.transcript with events, log := lines, trail } } := by
  obtain ⟨lines, trail, hleft⟩ := s.exists_leftBlock_eq signal
  obtain ⟨events, lines', hpassed⟩ :=
    (s.leftBlock signal).exists_passBreak_eq signal.deepened signal none
  refine ⟨events, lines', trail, ?_⟩
  rw [detour, hpassed, hleft]

theorem account_requestBreak (s : Session) (signal : Signal) :
    (s.requestBreak signal).account = s.account := by
  obtain ⟨lines, h⟩ := s.exists_requestBreak_eq signal
  rw [h]
  exact account_mark_of_plain rfl

theorem account_leftBlock (signal : Signal) (s : Session) :
    (s.leftBlock signal).account = s.account.add { walks := 1 } := by
  have entered : (s.enterPipeline signal.block).account = s.account.add { walks := 1 } :=
    account_mark ..
  have begun (u : Session) (f : Frame) (outer : List Frame) :
      (u.enterValve f outer 0).account = u.account := account_mark_of_plain rfl
  have left (u : Session) : (u.leaveValve 0 none none).account = u.account := account_mark_of_plain rfl
  have walked (u : Session) : (u.leavePipeline none).account = u.account := account_mark_of_plain rfl
  rw [leftBlock, walked, left, account_requestBreak, begun, entered]

theorem leavesBlock_event (signal : Signal) (s : Session) :
    (s.event "boundary.propagated" (.ofFields [("signal", signal.deepened.toJson),
      ("next", signal.toJson), ("label", labelJson none)])).LeavesBlock signal := by
  refine ⟨⟨s.depth, rfl, depth_event .., ?_, ?_, none, ?_, signal.atBoundary_deepened⟩, ?_⟩
  all_goals
    rw [field?_event _ _ _ (by simp [positionKeys])]
    rfl

theorem sink_leftBlock (signal : Signal) (s : Session) : (s.leftBlock signal).sink = s.sink := by
  obtain ⟨lines, trail, h⟩ := s.exists_leftBlock_eq signal
  rw [h]

theorem account_detour {s : Session} (h : s.sink = .collect) (signal : Signal) :
    ∃ e : Event, e.LeavesBlock signal ∧
      (s.detour signal).account = s.account.add { events := [e], walks := 1 } := by
  have hsink : (s.leftBlock signal).sink = .collect := (s.sink_leftBlock signal).trans h
  have told : (s.detour signal).account = (s.leftBlock signal).account.add { events := [_] } :=
    account_emit (s := (s.leftBlock signal).dropBreak.log ..) hsink _ _
  have added (e : Event) : (s.account.add { walks := 1 }).add { events := [e] } =
      s.account.add { events := [e], walks := 1 } := by
    simp [Account.add]
  rw [account_leftBlock, added] at told
  exact ⟨_, leavesBlock_event signal _, told⟩

theorem account_detour_of_ne {s : Session} (h : s.sink ≠ .collect) (signal : Signal) :
    (s.detour signal).account = s.account.add { walks := 1 } := by
  have hsink : (s.leftBlock signal).sink ≠ .collect := (s.sink_leftBlock signal).symm ▸ h
  rw [← s.account_leftBlock signal]
  exact account_emit_of_ne (s := (s.leftBlock signal).dropBreak.log ..) hsink _ _

theorem Abreast.detour {signal : Signal} {sink : Sink} {s t : Session}
    (h : s.Abreast (Account.detours signal sink) t) :
    (s.requestBreak signal).Abreast (Account.detours signal sink) (t.detour signal) := by
  have told : Account.Detours signal sink (s.requestBreak signal).account (t.detour signal).account := by
    rw [account_requestBreak]
    have hsink : t.sink = sink := h.sink_eq.trans h.sink
    by_cases hcollect : t.sink = .collect
    · obtain ⟨e, he, htold⟩ := account_detour hcollect signal
      rw [htold]
      exact h.account.put (hsink.symm.trans hcollect) he
    · rw [account_detour_of_ne hcollect]
      exact h.account.skip (hsink ▸ hcollect)
  obtain ⟨lines, hs⟩ := s.exists_requestBreak_eq signal
  obtain ⟨events, lines', trail, ht⟩ := t.exists_detour_eq signal
  rw [hs, ht] at told ⊢
  exact { h with
    pending := rfl
    journal := h.journal
    account := told }

end Session

theorem Valve.Branches.own {c : Condition} {signal : Signal} {v w : Valve} (h : v.Branches c signal w)
    {sink : Sink} (steps more : Nat) {s t : Session} (hpending : s.pending = none)
    (hst : s.Abreast (Account.detours signal sink) t) :
    ((Flat.work.own (Walk.runPipeline (Valve.run steps)) steps v).run s).Matches
      (Session.Abreast (Account.detours signal sink))
      ((Flat.work.own (Walk.runPipeline (Valve.run (more + 1))) (more + 1) w).run t) := by
  obtain ⟨rfl, rfl⟩ := h
  obtain ⟨hanswer, hasked⟩ := (Session.Abreast.shallow _).ask hst c
  have hidle : (t.ask c).2.pending = none := by rw [Session.pending_ask, hst.pending, hpending]
  simp only [Flat.work.own, Run.run_bind, Run.run_act, hanswer]
  cases (s.ask c).1 with
  | false => exact .answered hasked
  | true =>
    rw [if_pos rfl, Session.run_block signal more hidle]
    exact .answered hasked.detour

theorem Valve.Branches.own_flip {c : Condition} {signal : Signal} {v w : Valve}
    (h : v.Branches c signal w) {sink : Sink} (steps more : Nat) {s t : Session}
    (hpending : s.pending = none) (hst : s.Abreast (Account.detours signal sink).flip t) :
    ((Flat.work.own (Walk.runPipeline (Valve.run steps)) steps w).run s).Matches
      (Session.Abreast (Account.detours signal sink).flip)
      ((Flat.work.own (Walk.runPipeline (Valve.run more)) more v).run t) := by
  obtain ⟨rfl, rfl⟩ := h
  obtain ⟨hanswer, hasked⟩ := (Session.Abreast.shallow _).ask hst c
  have hidle : (s.ask c).2.pending = none := by rw [Session.pending_ask, hpending]
  simp only [Flat.work.own, Run.run_bind, Run.run_act, hanswer]
  cases (s.ask c).1 with
  | false => exact .answered hasked
  | true =>
    rw [if_pos rfl]
    cases steps with
    | zero =>
      obtain ⟨u, hu⟩ := Session.exists_run_block_zero signal hidle
      rw [hu]
      exact .cut
    | succ steps =>
      rw [Session.run_block signal steps hidle]
      exact .answered hasked.symm.detour.symm

theorem Account.detours_admits (c : Condition) (signal : Signal) (sink : Sink) :
    (detours signal sink).Admits (Valve.Branches c signal) 1 where
  builtIn h := by
    obtain ⟨rfl, rfl⟩ := h
    exact ⟨nofun, nofun⟩
  own {v w steps more s t} h hmore hpending hst := by
    obtain ⟨fewer, rfl⟩ : ∃ fewer, more = fewer + 1 := ⟨more - 1, by omega⟩
    exact h.own steps fewer hpending hst

theorem Account.detours_flip_admits (c : Condition) (signal : Signal) (sink : Sink) :
    (detours signal sink).flip.Admits (flip (Valve.Branches c signal)) 0 where
  builtIn h := by
    obtain ⟨rfl, rfl⟩ := h
    exact ⟨nofun, nofun⟩
  own {v w steps more s t} h _ hpending hst :=
    Valve.Branches.own_flip h steps more hpending hst

/-! ## Negated conditions -/

def AskedAlike (c : Condition) (a b : Condition × Attributes × Bool) : Prop :=
  b = a ∨ a.1 = c ∧ b = (.not c, a.2.1, !a.2.2)

structure Account.Negations (c : Condition) (a b : Account) : Prop where
  events : b.events = a.events
  walks : b.walks = a.walks
  asked : List.Forall₂ (AskedAlike c) a.asked b.asked

theorem Account.Negations.add {c : Condition} {a b : Account} (d : Account) (h : Negations c a b) :
    Negations c (a.add d) (b.add d) where
  events := congrArg (· ++ d.events) h.events
  walks := congrArg (· + d.walks) h.walks
  asked := List.rel_append h.asked (List.forall₂_same.mpr fun _ _ => .inl rfl)

def Account.negations (c : Condition) (sink : Sink) : Account.Comparison where
  sink
  holds := Negations c
  add := Negations.add

namespace Session

theorem ask_not (s : Session) (c : Condition) : s.ask (.not c) =
    (!(s.ask c).1, (s.noteAll (c.eval s.attributes).2).mark
      (.ask (.not c) s.attributes !(s.ask c).1)) :=
  rfl

theorem Abreast.ask_not {c : Condition} {sink : Sink} {s t : Session}
    (h : s.Abreast (Account.negations c sink) t) :
    (t.ask (.not c)).1 = !(s.ask c).1 ∧
      (s.ask c).2.Abreast (Account.negations c sink) (t.ask (.not c)).2 := by
  have noted := (shallow (Account.negations c sink)).close.lasting.noteAll h (c.eval s.attributes).2
  rw [Session.ask_not, Session.ask, Session.ask, h.attributes]
  refine ⟨rfl, noted.remark ⟨?_, ?_, ?_⟩⟩
  · exact congrArg (· ++ []) noted.account.events
  · exact congrArg (· + 0) noted.account.walks
  · exact List.rel_append noted.account.asked (.cons (.inr ⟨rfl, rfl⟩) .nil)

end Session

theorem Account.negations_admits (c : Condition) (signal : Signal) (sink : Sink) :
    (negations c sink).Admits (Valve.Negates c signal) 0 where
  builtIn h := by
    obtain ⟨rfl, rfl⟩ := h
    exact ⟨nofun, nofun⟩
  own {v w steps more s t} h _ hpending hst := by
    obtain ⟨rfl, rfl⟩ := h
    obtain ⟨hanswer, hasked⟩ := hst.ask_not
    simp only [Flat.work.own, Run.run_bind, Run.run_act, hanswer]
    exact (Session.Abreast.shallow _).parallel.breakWhen (!(s.ask c).1) signal _ _ hasked

theorem ask_not_corresponds {ε : Type} {x : Exchange} {scopes : List Bool} (c : Condition) :
    (Run.act (·.ask c) : Run ε Bool).Corresponds x scopes (Session.Agrees x scopes)
      (fun a b s t => b = !a ∧ s.Agrees x scopes t) (Run.act (·.ask (.not c))) := by
  refine .act (fun s => nested_covers.ask s c) (fun s => nested_covers.ask s _) fun s t h => ?_
  have noted := (Session.Agrees.lasting x scopes).noteAll h (c.eval s.attributes).2
  rw [Session.ask_not, Session.ask, Session.ask, h.attributes]
  exact ⟨rfl, noted.mark rfl rfl, noted.pending⟩

theorem Exchange.negates_holds (c : Condition) (signal : Signal) (steps : Nat) :
    (only (Valve.Negates c signal)).Holds steps where
  swapped := by
    rintro scopes v w s t ⟨rfl, rfl⟩ hstart h
    let x := only (Valve.Negates c signal)
    have breaks (wanted : Bool) : (Valve.breakWhen (Valve.run steps) wanted signal).Corresponds x scopes
        (Session.Agrees x scopes) (fun _ _ => Session.Tallies x scopes)
        (Valve.breakWhen (Valve.run steps) wanted signal) :=
      Valve.breakWhen_corresponds hstart wanted signal
    refine ((ask_not_corresponds c).bind (fun a => (breaks (!a)).keeps) (fun b => (breaks b).keeps)
      ?_).ends h.toAgrees
    rintro a _ u v ⟨rfl, hagrees⟩
    exact (breaks (!a)).ends hagrees
  halted h := h.elim

/-! ## Whole runs -/

/-- The sessions are the same, but that the second one has walked blocks and reported that these were left. -/
structure Session.SameButDetours (signal : Signal) (s t : Session) : Prop where
  attributes : t.attributes = s.attributes
  pending : t.pending = s.pending
  journal : t.transcript.journal = s.transcript.journal
  account : Account.Detours signal s.sink s.account t.account

structure Session.SameButNegations (c : Condition) (s t : Session) : Prop where
  attributes : t.attributes = s.attributes
  pending : t.pending = s.pending
  invoked : t.invoked = s.invoked
  journal : t.transcript.journal = s.transcript.journal
  log : t.transcript.log = s.transcript.log
  account : Account.Negations c s.account t.account

inductive Ending.SameButNegations {ε α : Type} (c : Condition) : Ending ε α → Ending ε α → Prop
  | answered {a : α} {s t : Session} : s.SameButNegations c t →
    SameButNegations c (.answered a s) (.answered a t)
  | exhausted {s t : Session} : SameButNegations c (.exhausted s) (.exhausted t)

theorem Session.Abreast.sameButDetours {signal : Signal} {sink : Sink} {s t : Session}
    (h : s.Abreast (Account.detours signal sink) t) : s.SameButDetours signal t where
  attributes := h.attributes
  pending := h.pending
  journal := h.journal
  account := h.sink ▸ h.account

theorem Account.detours_refl (signal : Signal) (sink : Sink) (a : Account) : Detours signal sink a a where
  events := .refl _ _
  reported _ := rfl
  unreported _ := rfl
  asked := rfl

theorem Account.negations_refl (c : Condition) (a : Account) : Negations c a a where
  events := rfl
  walks := rfl
  asked := List.forall₂_same.mpr fun _ _ => .inl rfl

theorem Session.Abreast.leadsAlong_detours {c : Condition} {signal : Signal} {s t : Session}
    (hst : s.Abreast (Account.detours signal s.sink) t)
    (hpipelines : s.pipeline.Respelled (Valve.Branches c signal) t.pipeline) :
    s.LeadsAlong 1 (Session.SameButDetours signal) t ∧
      t.LeadsAlong 0 (flip (Session.SameButDetours signal)) s := by
  have hrelated := Pipeline.respelled_substitutes (Valve.Branches c signal)
  constructor
  · exact (hst.leadsAlong (Account.detours_admits c signal s.sink) hrelated hpipelines).imp
      fun _ _ => Session.Abreast.sameButDetours
  · exact (hst.symm.leadsAlong (Account.detours_flip_admits c signal s.sink) hrelated.symm
      hpipelines).imp fun _ _ h => h.symm.sameButDetours

/-- With every allowance of steps the negated conditions make a run go the same way. -/
theorem Session.invoke_sameButNegations {c : Condition} {signal : Signal} {s : Session} {q : Pipeline}
    (hbuiltIn : s.pipeline.BuiltIn)
    (hq : s.pipeline.Exchanged (.only (Valve.Negates c signal)) false q) (steps : Nat) :
    (s.invoke steps).SameButNegations c ({ s with pipeline := q }.invoke steps) := by
  have hst : s.Abreast (Account.negations c s.sink) { s with pipeline := q } :=
    abreast_of_exchanged hq rfl (Account.negations_refl c s.account)
  have leads := hst.leadsAlong (Account.negations_admits c signal s.sink)
    (Pipeline.respelled_substitutes _) ⟨hbuiltIn, _, hq⟩ steps
  -- That the logs agree, too, and that both runs are cut off together is known from the exchange.
  have agrees := invoke_corresponds (Exchange.only_lawful _) (Exchange.negates_holds c signal)
    (.of_exchanged hq s) steps
  generalize hfirst : s.invoke steps = first,
    hsecond : ({ s with pipeline := q } : Session).invoke steps = second at agrees ⊢
  cases agrees with
  | answered hsame =>
    obtain ⟨rfl, hagrees⟩ := hsame
    obtain ⟨v, hv, hafter⟩ := leads _ _ hfirst steps (Nat.le_refl _)
    obtain ⟨-, rfl⟩ := Ending.answered.inj (hsecond.symm.trans hv)
    exact .answered {
      attributes := hafter.attributes
      pending := hafter.pending
      invoked := hafter.invoked
      journal := hafter.journal
      log := Array.toList_inj.mp (hagrees.logged.eq_of_none fun _ => id)
      account := hafter.account }
  | @raised e _ _ _ => exact e.elim
  | exhausted _ => exact .exhausted
  | strayed hstrayed => exact hstrayed.elim

/-- A guarded break may be spelled out as a branch with a block that breaks one scope further, wherever it
stands in a built-in pipeline: a run of either pipeline is matched by one of the other, with the same result,
pending signal, attributes, journal and conditions asked, and the second one reports besides only that it left
each of these blocks. To break unless a condition holds is in every respect to break if its negation does. -/
theorem guarded_breaks_spelled_out (c : Condition) (signal : Signal) {s : Session}
    (hbuiltIn : s.pipeline.BuiltIn) :
    (∀ q, s.pipeline.Exchanged (.only (Valve.Branches c signal)) false q →
      s.LeadsAlong 1 (Session.SameButDetours signal) { s with pipeline := q } ∧
        Session.LeadsAlong 0 (flip (Session.SameButDetours signal)) { s with pipeline := q } s) ∧
    ∀ q, s.pipeline.Exchanged (.only (Valve.Negates c signal)) false q → ∀ steps,
      (s.invoke steps).SameButNegations c ({ s with pipeline := q }.invoke steps) := by
  refine ⟨fun q hq => ?_, fun q hq steps => Session.invoke_sameButNegations hbuiltIn hq steps⟩
  have hst : s.Abreast (Account.detours signal s.sink) { s with pipeline := q } :=
    Session.abreast_of_exchanged hq rfl (Account.detours_refl signal s.sink s.account)
  exact hst.leadsAlong_detours ⟨hbuiltIn, _, hq⟩

private def isDone : Condition :=
  .named "done" (.isSet "done")

private def guardedTurn (v : Valve) : Pipeline :=
  ⟨none, [.record "turn" none,
    .guarded (some ⟨none, [v, .record "on" none]⟩) none (some ⟨none, [.record "last" none]⟩) {},
    .setAttribute "done" .null]⟩

private def guardedRun (first second : Valve) : Pipeline :=
  ⟨none, [.loop (guardedTurn first) {}, second, .record "after" none]⟩

private theorem guardedRun_exchanged {x : Exchange} {v v' w w' : Valve}
    (hv : v.Exchanged x false v') (hw : w.Exchanged x false w') :
    (guardedRun v w).Exchanged x false (guardedRun v' w') := by
  have leaf {u : Valve} (hu : u.isLeaf = true) : u.Exchanged x false u := .leaf hu
  have tried : Pipeline.Exchanged x false ⟨none, [v, .record "on" none]⟩
      ⟨none, [v', .record "on" none]⟩ := .of_valves rfl (.cons hv (.cons (leaf rfl) .nil))
  have turn : (guardedTurn v).Exchanged x false (guardedTurn v') := by
    refine .of_valves rfl (.cons (leaf rfl) (.cons ?_ (.cons (leaf rfl) .nil)))
    exact .guarded (.some (.intro tried)) .none (.some (.intro (Pipeline.exchanged_self x _)))
  exact .of_valves rfl (.cons (.loop turn) (.cons hw (.cons (leaf rfl) .nil)))

private theorem guardedRun_builtIn (signal : Signal) :
    (guardedRun (.breakIf isDone signal) (.breakUnless isDone signal)).BuiltIn := by
  have ofAll {label : Option String} {valves : List Valve} (h : valves.Forall (·.BuiltIn)) :
      Pipeline.BuiltIn ⟨label, valves⟩ :=
    .intro (List.forall_iff_forall_mem.mp h)
  have ofChildren {v : Valve} (hv : ∀ name script, v ≠ .scripted name script)
      (h : v.children.Forall (·.BuiltIn)) : v.BuiltIn :=
    .intro hv (List.forall_iff_forall_mem.mp h)
  have tried : Pipeline.BuiltIn ⟨none, [.breakIf isDone signal, .record "on" none]⟩ :=
    ofAll ⟨.of_leaf nofun rfl, .of_leaf nofun rfl⟩
  have last : Pipeline.BuiltIn ⟨none, [.record "last" none]⟩ := ofAll (.of_leaf nofun rfl)
  have turn : (guardedTurn (.breakIf isDone signal)).BuiltIn :=
    ofAll ⟨.of_leaf nofun rfl, ofChildren nofun ⟨tried, last⟩, .of_leaf nofun rfl⟩
  exact ofAll ⟨ofChildren nofun turn, .of_leaf nofun rfl, .of_leaf nofun rfl⟩

theorem guarded_breaks_spelled_out_of_isDone :
    let breakIf := Valve.breakIf isDone (.level 1)
    let breakUnless := Valve.breakUnless isDone (.level 1)
    let s := Session.start (guardedRun breakIf breakUnless) .collect {}
    let branched : Session :=
      { s with pipeline := guardedRun (.ifThen isDone ⟨none, [.breakWith (.level 2)]⟩) breakUnless }
    let negated : Session := { s with pipeline := guardedRun breakIf (.breakIf (.not isDone) (.level 1)) }
    (s.invoke 5).session.transcript.journal =
      #["turn", "?done=false", "on", "last", "turn", "?done=true", "last", "?done=true", "after"] ∧
    s.LeadsAlong 1 (Session.SameButDetours (.level 1)) branched ∧
    branched.LeadsAlong 0 (flip (Session.SameButDetours (.level 1))) s ∧
    ∀ steps, (s.invoke steps).SameButNegations isDone (negated.invoke steps) := by
  intro breakIf breakUnless s branched negated
  obtain ⟨branches, negations⟩ :=
    guarded_breaks_spelled_out isDone (.level 1) (s := s) (guardedRun_builtIn (.level 1))
  obtain ⟨forth, back⟩ := branches _ (guardedRun_exchanged (.swap ⟨rfl, rfl⟩) (.leaf rfl))
  exact ⟨rfl, forth, back, negations _ (guardedRun_exchanged (.leaf rfl) (.swap ⟨rfl, rfl⟩))⟩

end ValvePipeline
