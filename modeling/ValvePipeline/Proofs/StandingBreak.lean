import ValvePipeline.Proofs.FlatRefinement
import ValvePipeline.Proofs.UnwindingLaw
import ValvePipeline.Proofs.WalkDiscipline

/-!
A requested break stands. There is one pending signal and it does not say which scope it belongs to, so
what becomes of a request depends on every call that is made while it is pending. The calls that
spare it leave it as it is and start no valve. A script that makes only such calls after its request, in
a walk whose other scripts under way do so too, ends the walk with its signal pending.
-/

set_option autoImplicit false
set_option relaxedAutoImplicit false

namespace ValvePipeline

namespace Call

def requested? : Call → Option Signal
  | .breakLevels count => some (.level count)
  | .breakToLabel label => some (.toLabel label)
  | .exit => some .exit
  | .request signal => some signal
  | _ => none

/-- The call leaves a pending signal as it is: it neither takes the signal nor requests one, and settles
it only where the boundary passes it on unchanged. -/
def Spares (signal : Signal) : Call → Prop
  | .takeBreak | .breakLevels _ | .breakToLabel _ | .exit | .request _ => False
  | .settle label => signal.atBoundary label = .propagate signal
  | .runBoundary p => signal.atBoundary p.label = .propagate signal
  | _ => True

end Call

/-- All the time from one session to a later one the signal is pending, and no valve starts. -/
structure Session.Stands (signal : Signal) (s t : Session) : Prop where
  pending : t.pending = some signal
  since : ∃ moments, t.trail = s.trail ++ moments ∧
    ∀ m ∈ moments, m.pending = some signal ∧ ∀ i, m.mark ≠ .enterValve i

namespace Session.Stands

variable {signal : Signal} {s t u : Session}

theorem of_trail_eq (hpending : t.pending = some signal) (htrail : t.trail = s.trail) :
    s.Stands signal t :=
  ⟨hpending, [], htrail.trans (List.append_nil _).symm, nofun⟩

theorem refl (h : s.pending = some signal) : s.Stands signal s :=
  .of_trail_eq h rfl

theorem trans (h : s.Stands signal t) (h' : t.Stands signal u) : s.Stands signal u := by
  obtain ⟨a, ha, hstands⟩ := h.since
  obtain ⟨b, hb, hstands'⟩ := h'.since
  refine ⟨h'.pending, a ++ b, by rw [hb, ha, List.append_assoc], ?_⟩
  intro m hm
  rcases List.mem_append.mp hm with hm | hm
  · exact hstands m hm
  · exact hstands' m hm

theorem of_moment {m : Moment} (hpending : t.pending = some signal)
    (htrail : t.trail = s.trail ++ [m]) (hm : m.pending = some signal)
    (hmark : ∀ i, m.mark ≠ .enterValve i) : s.Stands signal t := by
  refine ⟨hpending, [m], htrail, ?_⟩
  intro r hr
  obtain rfl := List.mem_singleton.mp hr
  exact ⟨hm, hmark⟩

theorem mark (h : s.pending = some signal) {m : Mark} (hm : ∀ i, m ≠ .enterValve i) :
    s.Stands signal (s.mark m) :=
  .of_moment h (s.trail_mark m) h hm

theorem log (h : s.pending = some signal) (severity : Severity) (message : String)
    (fields : List (String × Json)) : s.Stands signal (s.log severity message fields) :=
  .of_trail_eq h rfl

theorem emit (h : s.pending = some signal) (type : String) (data : Json) :
    s.Stands signal (s.emit type data) :=
  .of_trail_eq ((s.pending_emit type data).trans h) (s.trail_emit type data)

theorem ask (h : s.pending = some signal) (condition : Condition) :
    s.Stands signal (s.ask condition).2 := by
  have hpending := (s.pending_ask condition).trans h
  have htrail : (s.ask condition).2.trail = _ := trail_mark _ _
  rw [trail_noteAll] at htrail
  exact .of_moment hpending htrail hpending nofun

theorem settle (h : s.pending = some signal) {label : Option String}
    (hsignal : signal.atBoundary label = .propagate signal) :
    s.Stands signal (s.settle label).2 := by
  refine .of_trail_eq ?_ (s.trail_settle label)
  rw [settle_of_propagate h hsignal]
  rfl

theorem leaveValve (h : s.pending = some signal) (i : Nat) (cursor : Option Nat)
    (failure : Option ValveFailure) : s.Stands signal (s.leaveValve i cursor failure) :=
  .of_moment h (trail_leaveValve ..) h nofun

theorem leavePipeline (h : s.pending = some signal) (failure : Option ValveFailure) :
    s.Stands signal (s.leavePipeline failure) :=
  .of_moment h (trail_leavePipeline ..) h nofun

end Session.Stands

def Ending.Stands {ε α : Type} (signal : Signal) (r : Session) (ending : Ending ε α) : Prop :=
  ∃ t, ending.EndsIn t ∧ r.Stands signal t

def Run.Spares {ε α : Type} (signal : Signal) (x : Run ε α) : Prop :=
  ∀ s, s.pending = some signal → (x.run s).Stands signal s

namespace Ending.Stands

variable {ε δ α β : Type} {signal : Signal} {r s : Session} {x : Run ε α}

theorem mono {ending : Ending ε α} (h : r.Stands signal s) (hending : ending.Stands signal s) :
    ending.Stands signal r := by
  obtain ⟨t, ht, hstands⟩ := hending
  exact ⟨t, ht, h.trans hstands⟩

theorem bind_of {f : α → Run ε β} (h : (x.run s).Stands signal r)
    (hf : ∀ a t, x.run s = .answered a t → t.pending = some signal →
      ((f a).run t).Stands signal t) : ((x >>= f).run s).Stands signal r := by
  obtain ⟨t, ht, hstands⟩ := h
  rw [Run.run_bind]
  cases hended : x.run s with
  | answered a u =>
    obtain rfl : u = t := by rwa [hended] at ht
    exact (hf a u hended hstands.pending).mono hstands
  | raised e u => exact ⟨t, by rwa [hended] at ht, hstands⟩
  | exhausted u =>
    rw [hended] at ht
    exact ht.elim

theorem bind {f : α → Run ε β} (h : (x.run s).Stands signal r) (hf : ∀ a, (f a).Spares signal) :
    ((x >>= f).run s).Stands signal r :=
  h.bind_of fun a t _ ht => hf a t ht

theorem attempt (h : (x.run s).Stands signal r) :
    ((Run.attempt x : Run δ (Except ε α)).run s).Stands signal r := by
  obtain ⟨t, ht, hstands⟩ := h
  rw [Run.run_attempt]
  generalize x.run s = ending at ht ⊢
  cases ending with
  | answered a u => exact ⟨t, ht, hstands⟩
  | raised e u => exact ⟨t, ht, hstands⟩
  | exhausted u => exact ht.elim

theorem raising (h : (x.run s).Stands signal r) (f : ε → δ) :
    ((x.raising f).run s).Stands signal r := by
  obtain ⟨t, ht, hstands⟩ := h
  rw [Run.run_raising]
  generalize x.run s = ending at ht ⊢
  cases ending with
  | answered a u => exact ⟨t, ht, hstands⟩
  | raised e u => exact ⟨t, ht, hstands⟩
  | exhausted u => exact ht.elim

theorem afterwards {f : Option ε → Session → Session} (h : (x.run s).Stands signal r)
    (hf : ∀ failure (t : Session), t.pending = some signal → t.Stands signal (f failure t)) :
    ((x.afterwards f).run s).Stands signal r := by
  obtain ⟨t, ht, hstands⟩ := h
  rw [Run.run_afterwards]
  generalize x.run s = ending at ht ⊢
  cases ending with
  | answered a u =>
    obtain rfl : u = t := ht
    exact ⟨f none u, rfl, hstands.trans (hf none u hstands.pending)⟩
  | raised e u =>
    obtain rfl : u = t := ht
    exact ⟨f (some e) u, rfl, hstands.trans (hf (some e) u hstands.pending)⟩
  | exhausted u => exact ht.elim

end Ending.Stands

namespace Run.Spares

variable {ε δ α β : Type} {signal : Signal}

theorem pure (a : α) : (Pure.pure a : Run ε α).Spares signal :=
  fun s h => ⟨s, rfl, .refl h⟩

theorem raise (e : ε) : (Run.raise e : Run ε α).Spares signal :=
  fun s h => ⟨s, rfl, .refl h⟩

theorem read (f : Session → α) : (Run.read f : Run ε α).Spares signal :=
  fun s h => ⟨s, rfl, .refl h⟩

theorem act {f : Session → α × Session}
    (h : ∀ s : Session, s.pending = some signal → s.Stands signal (f s).2) :
    (Run.act f : Run ε α).Spares signal :=
  fun s hs => ⟨(f s).2, rfl, h s hs⟩

theorem update {f : Session → Session}
    (h : ∀ s : Session, s.pending = some signal → s.Stands signal (f s)) :
    (Run.update f : Run ε Unit).Spares signal :=
  fun s hs => ⟨f s, rfl, h s hs⟩

theorem emit {f : Session → Session}
    (h : ∀ s : Session, s.pending = some signal → s.Stands signal (f s)) (type : String)
    (data : Json) : (Run.update fun s => (f s).emit type data : Run ε Unit).Spares signal :=
  .update fun s hs => (h s hs).trans (.emit (h s hs).pending type data)

theorem bind {x : Run ε α} {f : α → Run ε β} (hx : x.Spares signal)
    (hf : ∀ a, (f a).Spares signal) : (x >>= f).Spares signal :=
  fun s hs => (hx s hs).bind hf

theorem attempt {x : Run ε α} (hx : x.Spares signal) :
    (Run.attempt x : Run δ (Except ε α)).Spares signal :=
  fun s hs => (hx s hs).attempt

theorem raising {x : Run ε α} (hx : x.Spares signal) (f : ε → δ) : (x.raising f).Spares signal :=
  fun s hs => (hx s hs).raising f

end Run.Spares

namespace Walk

variable {signal : Signal} (start : Starter)

theorem proceed_spares : (proceed start).Spares signal := by
  intro s hs
  rw [run_proceed_of_pending start (by rw [hs]; rfl)]
  exact ⟨s, rfl, .refl hs⟩

theorem runPipeline_spares (p : Pipeline) : (runPipeline start p).Spares signal := by
  refine .bind (.update fun s hs => ?_) fun _ => .bind ?_ fun _ => .read _
  · exact .of_moment hs (s.trail_enterPipeline p) hs nofun
  · intro s hs
    exact (proceed_spares start s hs).afterwards fun failure t ht => .leavePipeline ht failure

theorem settle_spares {ε : Type} {label : Option String}
    (h : signal.atBoundary label = .propagate signal) :
    (settle label : Run ε Settlement).Spares signal :=
  .act fun _ hs => .settle hs h

theorem resumeAfter_spares (settlement : Settlement) :
    (resumeAfter start settlement).Spares signal := by
  unfold resumeAfter
  split
  · exact proceed_spares start
  · exact .pure ()

theorem invoke_spares {ε : Type} :
    (invoke (runPipeline start) : Run ε (Except RunFailure Outcome)).Spares signal := by
  refine .bind (.read id) fun s => ?_
  split
  · exact .pure _
  have invoked (t : Session) (ht : t.pending = some signal) :
      t.Stands signal { t with invoked := true } :=
    .of_trail_eq ht rfl
  refine .bind (.emit invoked _ _) fun _ => ?_
  refine .bind (runPipeline_spares start s.pipeline).attempt fun ended => ?_
  cases ended with
  | error failure =>
    exact .bind (.emit (fun t ht => .log ht ..) _ _) fun _ => .pure _
  | ok ended =>
    cases ended with
    | completed => exact .bind (.emit (fun t ht => .refl ht) _ _) fun _ => .pure _
    | unwound =>
      refine .bind (.read _) fun pending => ?_
      exact .bind (.emit (fun t ht => .log ht ..) _ _) fun _ => .pure _

end Walk

theorem Call.perform_spares {signal : Signal} (start : Starter) {made : Call}
    (h : made.Spares signal) : (made.perform start).Spares signal := by
  cases made with
  | set key value => exact .act fun s hs => .of_trail_eq hs rfl
  | remove key => exact .act fun s hs => .of_trail_eq hs rfl
  | incr key amount => exact .act fun s hs => .of_trail_eq hs rfl
  | breakLevels count => exact h.elim
  | breakToLabel label => exact h.elim
  | exit => exact h.elim
  | request signal => exact h.elim
  | takeBreak => exact h.elim
  | eval condition => exact .act fun s hs => .ask hs condition
  | emit type data => exact .act fun s hs => .emit hs type data
  | settle label => exact .bind (Walk.settle_spares h) fun _ => .pure _
  | proceed => exact .bind ((Walk.proceed_spares start).raising _) fun _ => .pure _
  | tryProceed =>
    refine .bind (Walk.proceed_spares start).attempt fun ended => ?_
    cases ended <;> exact .pure _
  | resume settlement =>
    exact .bind ((Walk.resumeAfter_spares start settlement).raising _) fun _ => .pure _
  | runPipeline p =>
    exact .bind ((Walk.runPipeline_spares start p).raising _) fun _ => .pure _
  | runBoundary p =>
    have walked := (Walk.runPipeline_spares start p).bind fun _ =>
      Walk.settle_spares (ε := ValveFailure) h
    exact .bind (walked.raising _) fun _ => .pure _
  | finish flow => exact .pure _
  | raise raised => exact .raise raised
  | invoke => exact .bind (Walk.invoke_spares start) fun _ => .pure _
  | _ => exact .read _

namespace Script

variable {start : Starter} {signal : Signal}

/-- Every call to which the script comes, begun in the session, spares the signal. -/
def Spares (start : Starter) (signal : Signal) (script : Script) (s : Session) : Prop :=
  ∀ made next t, Reaches start script s (.call made next) t → made.Spares signal

theorem Spares.finish {flow : Flow} {s : Session} : (Script.finish flow).Spares start signal s := by
  intro made next t h
  cases h

theorem Spares.call {made : Call} {next : Except Raised Reply → Script} {s : Session}
    (hmade : made.Spares signal) (hnext : ∀ reply t, (next reply).Spares start signal t) :
    (Script.call made next).Spares start signal s := by
  intro made' next' t h
  cases h with
  | refl => exact hmade
  | call _ h => exact hnext _ _ made' next' t h

theorem follow_stands : ∀ (script : Script) {s : Session}, s.pending = some signal →
    script.Spares start signal s → ((script.follow start).run s).Stands signal s
  | .finish _, s, hs, _ => ⟨s, rfl, .refl hs⟩
  | .raise _, s, hs, _ => ⟨s, rfl, .refl hs⟩
  | .note entry rest, s, hs, hspares => by
    have later : rest.Spares start signal (s.note entry) :=
      fun made next t h => hspares made next t (.note h)
    have noted : s.Stands signal (s.note entry) := .of_trail_eq hs rfl
    exact (follow_stands rest (s := s.note entry) hs later).mono noted
  | .call made next, s, hs, hspares => by
    have marked : s.Stands signal (s.mark .call) := .mark hs nofun
    obtain ⟨u, hu, hstands⟩ :=
      Call.perform_spares start (hspares made next s .refl) (s.mark .call) marked.pending
    have follows (reply : Except Raised Reply)
        (hreply : (Run.attempt (made.perform start) : Run Raised (Except Raised Reply)).run
          (s.mark .call) = .answered reply u) :
        (((Script.call made next).follow start).run s).Stands signal s := by
      have later : (next reply).Spares start signal u :=
        fun made' next' t h => hspares made' next' t (.call hreply h)
      simp only [follow, Run.run_bind, Run.run_update, hreply]
      exact (follow_stands (next reply) hstands.pending later).mono (marked.trans hstands)
    cases hended : (made.perform start).run (s.mark .call) with
    | answered reply v =>
      obtain rfl : v = u := by rwa [hended] at hu
      exact follows (.ok reply) (by rw [Run.run_attempt, hended])
    | raised e v =>
      obtain rfl : v = u := by rwa [hended] at hu
      exact follows (.error e) (by rw [Run.run_attempt, hended])
    | exhausted v =>
      rw [hended] at hu
      exact hu.elim

theorem Reaches.run_follow {script rest : Script} {s t : Session}
    (h : Reaches start script s rest t) :
    (script.follow start).run s = (rest.follow start).run t := by
  induction h with
  | refl => rfl
  | note _ ih => exact ih
  | call hcall _ ih =>
    simp only [follow, Run.run_bind, Run.run_update, hcall]
    exact ih

theorem run_stands {name : String} {script : Script} {r s : Session}
    (h : ((script.follow start).run s).Stands signal r) :
    ((Script.run start name script).run s).Stands signal r := by
  refine (h.raising (Raised.underName name)).bind fun flow => ?_
  cases flow with
  | goOn => exact Walk.proceed_spares start
  | halt => exact .pure ()

end Script

theorem Call.run_attempt_of_requested {start : Starter} {made : Call} {signal : Signal}
    (h : made.requested? = some signal) (s : Session) :
    (Run.attempt (made.perform start) : Run Raised (Except Raised Reply)).run s =
      .answered (.ok (.answer (signalJson (some signal)))) (s.requestBreak signal) := by
  have requesting {other : Signal} (hother : some other = some signal) :
      (Run.attempt (Call.requesting other) : Run Raised (Except Raised Reply)).run s =
        .answered (.ok (.answer (signalJson (some signal)))) (s.requestBreak signal) := by
    obtain rfl := Option.some.inj hother
    rfl
  cases made with
  | breakLevels count => exact requesting h
  | breakToLabel label => exact requesting h
  | exit => exact requesting h
  | request other => exact requesting h
  | _ => cases h

def Call.proceeds : Call → Bool
  | .proceed | .tryProceed => true
  | .resume settlement => settlement.goesOn
  | _ => false

theorem Call.run_attempt_stands {start : Starter} {made : Call} (h : made.proceeds = true)
    {signal : Signal} {r s : Session} (hrest : ((Walk.proceed start).run s).Stands signal r) :
    ((Run.attempt (made.perform start) : Run Raised (Except Raised Reply)).run s).Stands signal
      r := by
  cases made with
  | proceed => exact ((hrest.raising _).bind fun _ => .pure _).attempt
  | tryProceed =>
    refine (hrest.attempt.bind fun ended => ?_).attempt
    cases ended <;> exact .pure _
  | resume settlement =>
    have resumed : ((Walk.resumeAfter start settlement).run s).Stands signal r := by
      rwa [Walk.resumeAfter, if_pos (show settlement.goesOn = true from h)]
    exact ((resumed.raising _).bind fun _ => .pure _).attempt
  | _ => cases h

namespace Walk

/-- The next valve of the innermost walk is one that a call for the rest of the walk starts. -/
structure Turn (s : Session) (frame : Frame) (outer : List Frame) (v : Valve) : Prop where
  idle : s.pending = none
  frames : s.frames = frame :: outer
  fresh : frame.hasStarted frame.next = false
  valve : frame.pipeline.valves[frame.next]? = some v

/-- The rest of the innermost walk, run from a first session on, comes to a last request of this signal by
one of its scripts, which leads to a second session. After its request the script makes only calls that
spare the signal, and so do the scripts of the walk that have called for the rest. -/
inductive Insists (signal : Signal) : Nat → Session → Session → Prop
  | requests {steps : Nat} {s u : Session} {frame : Frame} {outer : List Frame} {name : String}
    {script : Script} {made : Call} {next : Except Raised Reply → Script} :
    Turn s frame outer (.scripted name script) →
    Script.Reaches (Valve.run steps) script (s.enterValve frame outer frame.next)
      (.call made next) u →
    made.requested? = some signal →
    (next (.ok (.answer (Call.signalJson (some signal))))).Spares (Valve.run steps) signal
      ((u.mark .call).requestBreak signal) →
    Insists signal (steps + 1) s ((u.mark .call).requestBreak signal)
  /-- A valve that is not scripted has done its own work, and the request comes after it. -/
  | after {steps : Nat} {s u r : Session} {frame : Frame} {outer : List Frame} {v : Valve} :
    Turn s frame outer v → (∀ name script, v ≠ .scripted name script) →
    (Flat.work.own (runPipeline (Valve.run steps)) steps v).run
      (s.enterValve frame outer frame.next) = .answered () u →
    Insists signal steps u r → Insists signal (steps + 1) s r
  /-- A script has come to its end, and the request comes after it. -/
  | afterScript {steps : Nat} {s u r : Session} {frame : Frame} {outer : List Frame}
    {name : String} {script : Script} : Turn s frame outer (.scripted name script) →
    Script.Reaches (Valve.run steps) script (s.enterValve frame outer frame.next)
      (.finish .goOn) u →
    Insists signal steps u r → Insists signal (steps + 1) s r
  /-- A script has called for the rest, and the request comes inside of this call. -/
  | inside {steps : Nat} {s u r : Session} {frame : Frame} {outer : List Frame} {name : String}
    {script : Script} {made : Call} {next : Except Raised Reply → Script} :
    Turn s frame outer (.scripted name script) →
    Script.Reaches (Valve.run steps) script (s.enterValve frame outer frame.next)
      (.call made next) u →
    made.proceeds = true → Insists signal steps (u.mark .call) r →
    (∀ reply t, (Run.attempt (made.perform (Valve.run steps)) :
      Run Raised (Except Raised Reply)).run (u.mark .call) = .answered reply t →
        (next reply).Spares (Valve.run steps) signal t) →
    Insists signal (steps + 1) s r

variable {signal : Signal} {steps : Nat} {s r : Session}

theorem Turn.proceed_stands {frame : Frame} {outer : List Frame} {v : Valve} {start : Starter}
    (h : Turn s frame outer v)
    (hvalve : ((start v).run (s.enterValve frame outer frame.next)).Stands signal r) :
    ((proceed start).run s).Stands signal r := by
  rw [run_proceed_of_valve start h.idle h.frames h.fresh h.valve]
  exact hvalve.afterwards fun failure t ht => .leaveValve ht ..

/-- From its last request on to its end a valve with a script leaves the signal standing. -/
theorem requested_stands {name : String} {script : Script} {made : Call}
    {next : Except Raised Reply → Script} {u : Session} {start : Starter}
    (hreach : Script.Reaches start script s (.call made next) u)
    (hrequested : made.requested? = some signal)
    (hspares : (next (.ok (.answer (Call.signalJson (some signal))))).Spares start signal
      ((u.mark .call).requestBreak signal)) :
    ((Script.run start name script).run s).Stands signal ((u.mark .call).requestBreak signal) := by
  refine Script.run_stands ?_
  rw [hreach.run_follow]
  simp only [Script.follow, Run.run_bind, Run.run_update,
    Call.run_attempt_of_requested hrequested]
  exact Script.follow_stands _ rfl hspares

/-- From the request on to the end of the walk the signal stands. -/
theorem Insists.stands (h : Insists signal steps s r) :
    ((proceed (Valve.run steps)).run s).Stands signal r := by
  induction h with
  | requests hturn hreach hrequested hspares =>
    exact hturn.proceed_stands (requested_stands hreach hrequested hspares)
  | after hturn hscript hown _ ih =>
    refine hturn.proceed_stands ?_
    rw [show Valve.run (_ + 1) _ = Valve.work (Valve.run _) _ _ from rfl,
      Valve.work_eq_own _ _ hscript, Run.run_bind, hown]
    exact ih
  | afterScript hturn hreach _ ih =>
    refine hturn.proceed_stands ?_
    show ((Script.run _ _ _).run _).Stands _ _
    rw [Script.run, Run.run_bind, Run.run_raising, hreach.run_follow]
    exact ih
  | inside hturn hreach hproceeds _ hspares ih =>
    refine hturn.proceed_stands (Script.run_stands ?_)
    rw [hreach.run_follow]
    refine (Call.run_attempt_stands hproceeds ih).bind_of (s := Session.mark _ .call)
      fun reply t hreply ht => ?_
    exact Script.follow_stands _ ht (hspares reply t hreply)

theorem Insists.runPipeline_stands {p : Pipeline} (h : Insists signal steps (s.enterPipeline p) r) :
    ((runPipeline (Valve.run steps) p).run s).Stands signal r := by
  have walked := h.stands.afterwards fun failure t ht => .leavePipeline ht failure
  exact walked.bind fun _ => .read _

theorem unwound_iff {start : Starter} {p : Pipeline} {t : Session} {ended : WalkEnd}
    (h : (runPipeline start p).run s = .answered ended t) :
    ended = .unwound ↔ t.pending.isSome = true := by
  simp only [runPipeline, Run.run_bind, Run.run_update, Run.run_afterwards, Run.run_read] at h
  generalize (proceed start).run (s.enterPipeline p) = ending at h
  cases ending with
  | answered a u =>
    obtain ⟨rfl, rfl⟩ := Ending.answered.inj h
    split <;> simp_all
  | raised e u => cases h
  | exhausted u => cases h

/-- A requested break stops its own pipeline. Take a script that has requested a signal, and let it make
after that only calls that spare the signal: the signal is pending, and no valve starts, until the valve
of the script has ended. If the scripts of the walk that called for the rest do so too, the same holds
until the rest of the walk has ended, and until the walk itself has; a walk that raises nothing then
ends unwound. -/
theorem request_stands (signal : Signal) (steps : Nat) :
    (∀ name script made next (s u : Session),
      Script.Reaches (Valve.run steps) script s (.call made next) u →
      made.requested? = some signal →
      (next (.ok (.answer (Call.signalJson (some signal))))).Spares (Valve.run steps) signal
        ((u.mark .call).requestBreak signal) →
      ((Valve.run (steps + 1) (.scripted name script)).run s).Stands signal
        ((u.mark .call).requestBreak signal)) ∧
    (∀ s r : Session, Insists signal steps s r →
      ((proceed (Valve.run steps)).run s).Stands signal r) ∧
    ∀ p (s r : Session), Insists signal steps (s.enterPipeline p) r →
      ((runPipeline (Valve.run steps) p).run s).Stands signal r ∧
      ∀ ended t, (runPipeline (Valve.run steps) p).run s = .answered ended t →
        ended = .unwound := by
  refine ⟨?_, ?_, ?_⟩
  · intro name script made next s u hreach hrequested hspares
    exact requested_stands hreach hrequested hspares
  · intro s r h
    exact h.stands
  · intro p s r h
    have walked := h.runPipeline_stands
    refine ⟨walked, fun ended t hended => ?_⟩
    obtain ⟨u, hu, hstands⟩ := walked
    rw [hended] at hu
    obtain rfl : t = u := hu
    exact (unwound_iff hended).mpr (by rw [hstands.pending]; rfl)

private def sideScope : Pipeline :=
  ⟨some "side", [.failing "never" "no"]⟩

private def stubborn : Script :=
  .call (.breakLevels 1) fun _ => .call (.runPipeline sideScope) fun _ =>
    .call .proceed fun _ => .finish .goOn

private def stubbornWalk : Pipeline :=
  ⟨none, [.scripted "outer" (.call .tryProceed fun _ => .call .isBroken fun _ => .finish .goOn),
    .passThrough, .scripted "stubborn" stubborn, .failing "never" "no"]⟩

private def stubbornSession : Session :=
  Session.start stubbornWalk .collect {}

private theorem stubborn_insists :
    ∃ r, Insists (.level 1) 4 (stubbornSession.enterPipeline stubbornWalk) r := by
  have finished {steps : Nat} {flow : Flow} {s : Session} :
      (Script.finish flow).Spares (Valve.run steps) (.level 1) s := .finish
  apply Exists.intro
  apply Insists.inside ⟨rfl, rfl, rfl, rfl⟩ .refl rfl
  · apply Insists.after (v := .passThrough) ⟨rfl, rfl, rfl, rfl⟩ nofun rfl
    exact .requests ⟨rfl, rfl, rfl, rfl⟩ .refl rfl
      (.call trivial fun _ _ => .call trivial fun _ _ => finished)
  · exact fun _ _ _ => .call trivial fun _ _ => finished

theorem request_stands_of_stubborn :
    ∃ r t, Insists (.level 1) 4 (stubbornSession.enterPipeline stubbornWalk) r ∧
      r.Stands (.level 1) t ∧
      (runPipeline (Valve.run 4) stubbornWalk).run stubbornSession = .answered .unwound t := by
  obtain ⟨r, hr⟩ := stubborn_insists
  obtain ⟨⟨t, ht, hstands⟩, -⟩ := (request_stands (.level 1) 4).2.2 stubbornWalk stubbornSession r hr
  exact ⟨r, t, hr, hstands, by cases ht; rfl⟩

private def misled : Pipeline :=
  ⟨none, [.scripted "misled" (.call (.breakLevels 0) fun _ => .call (.runBoundary .empty) fun _ =>
    .finish .goOn), .passThrough]⟩

private def disarmed : Pipeline :=
  ⟨none, [.scripted "outer" (.call .proceed fun _ => .call .takeBreak fun _ => .finish .goOn),
    .scripted "inner" (.call (.breakLevels 0) fun _ => .finish .goOn)]⟩

/-- Not every call spares a request. The boundary of another scope settles it, and then the next valve
starts; and a script around the one that requested it can take it. Both walks complete. -/
theorem request_lost :
    (∃ t, (runPipeline (Valve.run 3) misled).run (Session.start misled .collect {}) =
        .answered .completed t ∧ t.pending = none ∧
      (t.trail.map (·.mark)).filter (· matches .request _ | .enterValve _) =
        [.enterValve 0, .request (.level 0), .enterValve 1]) ∧
    ∃ t, (runPipeline (Valve.run 3) disarmed).run (Session.start disarmed .collect {}) =
        .answered .completed t ∧ t.pending = none ∧
      (t.trail.map (·.mark)).filter (· matches .request _ | .enterValve _) =
        [.enterValve 0, .enterValve 1, .request (.level 0)] :=
  ⟨⟨_, rfl, rfl, rfl⟩, ⟨_, rfl, rfl, rfl⟩⟩

end Walk

end ValvePipeline
