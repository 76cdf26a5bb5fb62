import ValvePipeline.Proofs.Flat

/-!
What the engine may do to a session. A conduct says how the session after a computation is related
to the one before, and how one in which the computation was cut off is related to it. A conduct that
covers the single changes, the walk of a pipeline and the run of a valve is kept by every call that a
script makes.

Some changes are made only where a valve or a script asks for them. A conduct may allow these deeds in
part; it is then kept by the programs that do no others.
-/

set_option autoImplicit false
set_option relaxedAutoImplicit false

namespace ValvePipeline

def Mark.isPlain : Mark → Bool
  | .ask _ _ _ | .request _ | .iterate _ | .call => true
  | _ => false

inductive Change (s : Session) : Session → Prop
  | log (severity : Severity) (message : String) (fields : List (String × Json)) :
    Change s (s.log severity message fields)
  | note (entry : String) : Change s (s.note entry)
  | set (key : String) (value : Json) : Change s (s.setAttribute key value)
  | remove (key : String) : Change s (s.removeAttribute key)
  | emit (type : String) (data : Json) : Change s (s.emit type data)
  | pend (pending : Option Signal) : Change s { s with pending }
  | mark (m : Mark) (h : m.isPlain = true) : Change s (s.mark m)
  | invoke : Change s { s with invoked := true }

/-- A change that the engine makes only where a program asks for it. -/
inductive Deed where
  | set (key : String)
  | remove (key : String)
  | emit (type : String)

inductive Deed.Changes : Deed → Session → Session → Prop
  | set {s : Session} {key : String} (value : Json) :
    Changes (.set key) s (s.setAttribute key value)
  | remove {s : Session} {key : String} : Changes (.remove key) s (s.removeAttribute key)
  | emit {s : Session} {type : String} (data : Json) : Changes (.emit type) s (s.emit type data)

theorem Deed.Changes.change {d : Deed} {s t : Session} (h : d.Changes s t) : Change s t := by
  cases h with
  | set value => exact .set _ value
  | remove => exact .remove _
  | emit data => exact .emit _ data

def Event.ownTypes : List String :=
  ["boundary.absorbed", "boundary.propagated", "loop.iteration", "exception.caught"]

/-- How a session may be related to the one before a computation: when the computation has ended,
and when it was cut off. -/
structure Conduct where
  done : Session → Session → Prop
  cut : Session → Session → Prop

namespace Conduct

/-- One computation after another keeps to the conduct if both do. -/
structure Composes (c : Conduct) : Prop where
  refl (s : Session) : c.done s s
  trans {s t u : Session} : c.done s t → c.done t u → c.done s u
  cut_refl (s : Session) : c.cut s s
  cut_trans {s t u : Session} : c.done s t → c.cut t u → c.cut s u

/-- The conduct covers the changes that the engine makes of itself, one after the other, and the deeds
that programs may do. -/
structure Allows (c : Conduct) (may : Deed → Prop) : Prop extends c.Composes where
  log (s : Session) (severity : Severity) (message : String) (fields : List (String × Json)) :
    c.done s (s.log severity message fields)
  note (s : Session) (entry : String) : c.done s (s.note entry)
  pend (s : Session) (pending : Option Signal) : c.done s { s with pending }
  mark (s : Session) {m : Mark} : m.isPlain = true → c.done s (s.mark m)
  report (s : Session) {type : String} (data : Json) : type ∈ Event.ownTypes →
    c.done s (s.emit type data)
  deed {d : Deed} {s t : Session} : may d → d.Changes s t → c.done s t

structure Continues (c : Conduct) : Prop extends c.Allows fun _ => True where
  change {s t : Session} : Change s t → c.done s t
  log _ severity message fields := change (.log severity message fields)
  note _ entry := change (.note entry)
  pend _ pending := change (.pend pending)
  mark _ {_} h := change (.mark _ h)
  report _ {type} data _ := change (.emit type data)
  deed _ h := change h.change

/-- The conduct covers a walk around what happens in it, and a valve around what happens while it runs. -/
structure Encloses (c : Conduct) : Prop where
  walk {s t : Session} (p : Pipeline) (failure : Option ValveFailure) :
    c.done (s.enterPipeline p) t → c.done s (t.leavePipeline failure)
  walk_cut {s t : Session} (p : Pipeline) : c.cut (s.enterPipeline p) t → c.cut s t
  valve {s t : Session} {frame : Frame} {outer : List Frame} (failure : Option ValveFailure) :
    s.pending = none → s.frames = frame :: outer → frame.hasStarted frame.next = false →
    c.done (s.enterValve frame outer frame.next) t →
    c.done s (t.leaveValve frame.next frame.cursor failure)
  valve_cut {s t : Session} {frame : Frame} {outer : List Frame} :
    s.pending = none → s.frames = frame :: outer → frame.hasStarted frame.next = false →
    c.cut (s.enterValve frame outer frame.next) t → c.cut s t

structure Covers (c : Conduct) : Prop extends c.Continues, c.Encloses

end Conduct

def Ending.EndsIn {ε α : Type} (ending : Ending ε α) (t : Session) : Prop :=
  match ending with
  | .answered _ s => s = t
  | .raised _ s => s = t
  | .exhausted _ => False

theorem Ending.EndsIn.session {ε α : Type} {ending : Ending ε α} {t : Session}
    (h : ending.EndsIn t) : ending.session = t := by
  cases ending with
  | answered _ _ => exact h
  | raised _ _ => exact h
  | exhausted _ => exact h.elim

namespace Run

variable {ε δ α β : Type}

def KeepsTo (c : Conduct) (x : Run ε α) : Prop :=
  ∀ s, match x.run s with
    | .answered _ t => c.done s t
    | .raised _ t => c.done s t
    | .exhausted t => c.cut s t

variable {c : Conduct}

theorem KeepsTo.endsIn {x : Run ε α} (hx : x.KeepsTo c) {s t : Session}
    (h : (x.run s).EndsIn t) : c.done s t := by
  have := hx s
  cases hr : x.run s with
  | answered a u => simp_all [Ending.EndsIn]
  | raised e u => simp_all [Ending.EndsIn]
  | exhausted u => simp [Ending.EndsIn, hr] at h

theorem endsIn_afterwards {x : Run ε α} {f : Option ε → Session → Session} {s t : Session}
    (h : ((x.afterwards f).run s).EndsIn t) :
    ∃ u failure, (x.run s).EndsIn u ∧ f failure u = t := by
  rw [run_afterwards] at h
  cases hr : x.run s with
  | answered a u => exact ⟨u, none, rfl, by simpa [Ending.EndsIn, hr] using h⟩
  | raised e u => exact ⟨u, some e, rfl, by simpa [Ending.EndsIn, hr] using h⟩
  | exhausted u => simp [Ending.EndsIn, hr] at h

theorem KeepsTo.answered {x : Run ε α} (hx : x.KeepsTo c) {s t : Session} {a : α}
    (h : x.run s = .answered a t) : c.done s t := by
  have := hx s
  rwa [h] at this

theorem KeepsTo.raised {x : Run ε α} (hx : x.KeepsTo c) {s t : Session} {e : ε}
    (h : x.run s = .raised e t) : c.done s t := by
  have := hx s
  rwa [h] at this

theorem KeepsTo.exhausted {x : Run ε α} (hx : x.KeepsTo c) {s t : Session}
    (h : x.run s = .exhausted t) : c.cut s t := by
  have := hx s
  rwa [h] at this

theorem KeepsTo.attempt {x : Run ε α} (hx : x.KeepsTo c) :
    (Run.attempt x : Run δ (Except ε α)).KeepsTo c := by
  intro s
  have := hx s
  rw [run_attempt]
  cases h : x.run s <;> simpa [h] using this

theorem KeepsTo.raising {x : Run ε α} (hx : x.KeepsTo c) (f : ε → δ) :
    (x.raising f).KeepsTo c := by
  intro s
  have := hx s
  rw [run_raising]
  cases h : x.run s <;> simpa [h] using this

end Run

namespace Conduct

variable {ε α β : Type} {c : Conduct} {may : Deed → Prop}

namespace Composes

theorem pure (hc : c.Composes) (a : α) : (Pure.pure a : Run ε α).KeepsTo c :=
  fun s => hc.refl s

theorem raise (hc : c.Composes) (e : ε) : (Run.raise e : Run ε α).KeepsTo c :=
  fun s => hc.refl s

theorem outOfSteps (hc : c.Composes) : (Run.outOfSteps : Run ε α).KeepsTo c :=
  fun s => hc.cut_refl s

theorem read (hc : c.Composes) (f : Session → α) : (Run.read f : Run ε α).KeepsTo c :=
  fun s => hc.refl s

theorem bind (hc : c.Composes) {x : Run ε α} {f : α → Run ε β} (hx : x.KeepsTo c)
    (hf : ∀ a, (f a).KeepsTo c) : (x >>= f).KeepsTo c := by
  intro s
  rw [Run.run_bind]
  cases h : x.run s with
  | answered a t =>
    have first := hx.answered h
    have second := hf a t
    cases h' : (f a).run t with
    | answered b u => simpa [h'] using hc.trans first ((hf a).answered h')
    | raised e u => simpa [h'] using hc.trans first ((hf a).raised h')
    | exhausted u => simpa [h'] using hc.cut_trans first ((hf a).exhausted h')
  | raised e t => exact hx.raised h
  | exhausted t => exact hx.exhausted h

end Composes

namespace Allows

theorem ask (hc : c.Allows may) (s : Session) (condition : Condition) :
    c.done s (s.ask condition).2 := by
  have notes : ∀ (entries : List String) (t : Session), c.done t (t.noteAll entries) := by
    intro entries
    induction entries with
    | nil => exact hc.refl
    | cons entry entries ih =>
      intro t
      exact hc.trans (hc.note t entry) (ih (t.note entry))
  exact hc.trans (notes _ s) (hc.mark _ rfl)

theorem request (hc : c.Allows may) (s : Session) (signal : Signal) :
    c.done s (s.requestBreak signal) := by
  have warn : ∀ t : Session, c.done s t → c.done s
      ({ t.log .debug "Break requested"
        [("signal", .string signal.display), ("depth", .nat t.depth),
          ("index", .string (Session.showIndex t.index))] with
        pending := some signal }.mark (.request signal)) := by
    intro t h
    refine hc.trans ?_ (hc.mark _ rfl)
    refine hc.trans ?_ (hc.pend _ (some signal))
    exact hc.trans h (hc.log ..)
  cases signal with
  | label name =>
    simp only [Session.requestBreak]
    split
    · exact warn _ (hc.log ..)
    · exact warn _ (hc.refl s)
  | level count => exact warn _ (hc.refl s)
  | exit => exact warn _ (hc.refl s)

theorem settle (hc : c.Allows may) (s : Session) (label : Option String) :
    c.done s (s.settle label).2 := by
  have drop : c.done s s.dropBreak := hc.pend s none
  cases hpending : s.pending with
  | none =>
    rw [Session.settle_of_none hpending]
    exact hc.refl s
  | some signal =>
    cases hsignal : signal.atBoundary label with
    | absorb =>
      rw [Session.settle_of_absorb hpending hsignal]
      refine hc.trans ?_ (hc.report _ _ (by simp [Event.ownTypes]))
      exact hc.trans drop (hc.log ..)
    | propagate next =>
      rw [Session.settle_of_propagate hpending hsignal]
      refine hc.trans ?_ (hc.pend _ (some next))
      refine hc.trans ?_ (hc.report _ _ (by simp [Event.ownTypes]))
      exact hc.trans drop (hc.log ..)

theorem begin (hc : c.Allows may) (config : LoopConfig) (h : may (.set config.counter))
    (count : Nat) (s : Session) : c.done s (Loop.begin config count s) := by
  have counted : c.done s (s.setAttribute config.counter (.nat count)) := hc.deed h (.set _)
  refine hc.trans ?_ (hc.mark _ rfl)
  refine hc.trans ?_ (hc.report _ _ (by simp [Event.ownTypes]))
  exact hc.trans counted (hc.log ..)

theorem catching (hc : c.Allows may) (config : CatchConfig) (h : may (.set config.exceptionName))
    (failure : ValveFailure) (s : Session) : c.done s (Guarded.catching config failure s) := by
  have dropped : c.done s s.dropBreak := hc.pend s none
  refine hc.trans ?_ (hc.deed h (.set _))
  refine hc.trans ?_ (hc.report _ _ (by simp [Event.ownTypes]))
  exact hc.trans dropped (hc.log ..)

end Allows

namespace Continues

theorem update {f : Session → Session} (h : ∀ s, c.done s (f s)) :
    (Run.update f : Run ε Unit).KeepsTo c :=
  h

theorem act {f : Session → α × Session} (h : ∀ s, c.done s (f s).2) :
    (Run.act f : Run ε α).KeepsTo c :=
  h

theorem emit (hc : c.Continues) (s : Session) (type : String) (data : Json) :
    c.done s (s.emit type data) :=
  hc.change (.emit type data)

end Continues

end Conduct

namespace Walk

/-- Everything that a call for the rest of the innermost walk can do. -/
inductive Proceeding (start : Starter) (s : Session) : Ending ValveFailure Unit → Prop
  | waits : s.pending.isSome = true → Proceeding start s (.answered () s)
  | outside : s.pending = none → s.frames = [] →
    Proceeding start s (.answered () (s.log .warn "proceed() called outside of a pipeline walk" []))
  | again {frame : Frame} {outer : List Frame} : s.pending = none → s.frames = frame :: outer →
    frame.hasStarted frame.next = true →
    Proceeding start s (.answered () (s.log .warn
      "Valve called proceed() more than once; ignoring"
      [("pipeline", .string frame.pipeline.displayName), ("index", .nat (frame.next - 1))]))
  | ends {frame : Frame} {outer : List Frame} : s.pending = none → s.frames = frame :: outer →
    frame.hasStarted frame.next = false → frame.pipeline.valves[frame.next]? = none →
    Proceeding start s (.answered () s)
  | starts {frame : Frame} {outer : List Frame} {valve : Valve} : s.pending = none →
    s.frames = frame :: outer → frame.hasStarted frame.next = false →
    frame.pipeline.valves[frame.next]? = some valve →
    Proceeding start s (((start valve).afterwards (Session.leaveValve frame.next frame.cursor)).run
      (s.enterValve frame outer frame.next))

theorem proceed_proceeding (start : Starter) (s : Session) :
    Proceeding start s ((proceed start).run s) := by
  by_cases hpending : s.pending.isSome = true
  · rw [run_proceed_of_pending start hpending]
    exact .waits hpending
  rw [Option.not_isSome_iff_eq_none] at hpending
  cases hframes : s.frames with
  | nil =>
    rw [run_proceed_of_nil start hpending hframes]
    exact .outside hpending hframes
  | cons frame outer =>
    cases hnew : frame.hasStarted frame.next with
    | true =>
      rw [run_proceed_of_started start hpending hframes hnew]
      exact .again hpending hframes hnew
    | false =>
      cases hvalve : frame.pipeline.valves[frame.next]? with
      | none =>
        rw [run_proceed_of_end start hpending hframes hnew hvalve]
        exact .ends hpending hframes hnew hvalve
      | some valve =>
        rw [run_proceed_of_valve start hpending hframes hnew hvalve]
        exact .starts hpending hframes hnew hvalve

variable {ε : Type} {c : Conduct} {may : Deed → Prop} {start : Starter} {walk : Walker}

theorem proceed_keepsTo (hc : c.Covers) (hstart : ∀ v, (start v).KeepsTo c) :
    (proceed start).KeepsTo c := by
  intro s
  have proceeding := proceed_proceeding start s
  generalize (proceed start).run s = ending at proceeding ⊢
  cases proceeding with
  | waits _ => exact hc.refl s
  | outside _ _ => exact hc.log ..
  | again _ _ _ => exact hc.log ..
  | ends _ _ _ _ => exact hc.refl s
  | @starts frame outer valve hpending hframes hnew _ =>
    rw [Run.run_afterwards]
    cases h : (start valve).run (s.enterValve frame outer frame.next) with
    | answered a t => exact hc.valve none hpending hframes hnew ((hstart valve).answered h)
    | raised e t => exact hc.valve (some e) hpending hframes hnew ((hstart valve).raised h)
    | exhausted t => exact hc.valve_cut hpending hframes hnew ((hstart valve).exhausted h)

theorem runPipeline_keepsTo (hc : c.Covers) (hstart : ∀ v, (start v).KeepsTo c) (p : Pipeline) :
    (runPipeline start p).KeepsTo c := by
  intro s
  simp only [runPipeline, Run.run_bind, Run.run_update, Run.run_afterwards]
  cases h : (proceed start).run (s.enterPipeline p) with
  | answered a t => exact hc.walk p none ((proceed_keepsTo hc hstart).answered h)
  | raised e t => exact hc.walk p (some e) ((proceed_keepsTo hc hstart).raised h)
  | exhausted t => exact hc.walk_cut p ((proceed_keepsTo hc hstart).exhausted h)

theorem settle_keepsTo (hc : c.Continues) (label : Option String) :
    (settle label : Run ε Settlement).KeepsTo c :=
  Conduct.Continues.act fun s => hc.settle s label

theorem runBoundary_keepsTo (hc : c.Allows may) {p : Pipeline} (hwalk : (walk p).KeepsTo c) :
    (runBoundary walk p).KeepsTo c :=
  hc.bind hwalk fun _ => Conduct.Continues.act fun s => hc.settle s p.label

theorem invoke_keepsTo (hc : c.Continues) (hwalk : ∀ p, (walk p).KeepsTo c) :
    (invoke walk : Run ε (Except RunFailure Outcome)).KeepsTo c := by
  refine hc.bind (hc.read id) fun s => ?_
  split
  · exact hc.pure _
  refine hc.bind (Conduct.Continues.update fun t => hc.trans (hc.change .invoke) (hc.emit ..)) ?_
  intro _
  refine hc.bind (hwalk s.pipeline).attempt fun ended => ?_
  cases ended with
  | error failure =>
    exact hc.bind (Conduct.Continues.update fun t => hc.trans (hc.log ..) (hc.emit ..))
      fun _ => hc.pure _
  | ok ended =>
    cases ended with
    | completed => exact hc.bind (Conduct.Continues.update fun t => hc.emit ..) fun _ => hc.pure _
    | unwound =>
      refine hc.bind (hc.read _) fun pending => ?_
      exact hc.bind (Conduct.Continues.update fun t => hc.trans (hc.log ..) (hc.emit ..))
        fun _ => hc.pure _

end Walk

namespace Call

def deeds : Call → List Deed
  | .set key _ => [.set key]
  | .remove key => [.remove key]
  | .incr key _ => [.set key]
  | .emit type _ => [.emit type]
  | _ => []

structure Admitted (may : Deed → Prop) (admits : Pipeline → Prop) (made : Call) : Prop where
  deeds : ∀ d ∈ made.deeds, may d
  pipelines : ∀ p ∈ made.pipelines, admits p

end Call

theorem Call.admitted (made : Call) : made.Admitted (fun _ => True) fun _ => True where
  deeds _ _ := trivial
  pipelines _ _ := trivial

inductive Script.Admitted (may : Deed → Prop) (admits : Pipeline → Prop) : Script → Prop
  | finish {flow : Flow} : Admitted may admits (.finish flow)
  | raise {raised : Raised} : Admitted may admits (.raise raised)
  | note {entry : String} {rest : Script} : Admitted may admits rest →
    Admitted may admits (.note entry rest)
  | call {made : Call} {next : Except Raised Reply → Script} : made.Admitted may admits →
    (∀ reply, Admitted may admits (next reply)) → Admitted may admits (.call made next)

theorem Script.admitted : ∀ script : Script, script.Admitted (fun _ => True) fun _ => True
  | .finish _ => .finish
  | .raise _ => .raise
  | .note _ rest => .note (Script.admitted rest)
  | .call made next => .call made.admitted fun reply => Script.admitted (next reply)

namespace Conduct

variable {c : Conduct} {may : Deed → Prop} {admits : Pipeline → Prop} {start : Starter}

/-- The conduct allows these deeds, and is kept by all that a script may start: the rest of a walk, the
walks of these pipelines and a whole run. -/
structure Carries (c : Conduct) (may : Deed → Prop) (admits : Pipeline → Prop) (start : Starter) :
    Prop extends c.Allows may where
  proceed : (Walk.proceed start).KeepsTo c
  walk {p : Pipeline} : admits p → (Walk.runPipeline start p).KeepsTo c
  invoke : (Walk.invoke (Walk.runPipeline start) : Run Raised (Except RunFailure Outcome)).KeepsTo c

theorem Covers.carries (hc : c.Covers) (hstart : ∀ v, (start v).KeepsTo c) :
    c.Carries (fun _ => True) (fun _ => True) start where
  toAllows := hc.toAllows
  proceed := Walk.proceed_keepsTo hc hstart
  walk _ := Walk.runPipeline_keepsTo hc hstart _
  invoke := Walk.invoke_keepsTo hc.toContinues (Walk.runPipeline_keepsTo hc hstart)

namespace Carries

theorem resume (hc : c.Carries may admits start) (settlement : Settlement) :
    (Walk.resumeAfter start settlement).KeepsTo c := by
  unfold Walk.resumeAfter
  split
  · exact hc.proceed
  · exact hc.pure ()

theorem perform (hc : c.Carries may admits start) {made : Call} (h : made.Admitted may admits) :
    (made.perform start).KeepsTo c := by
  have request (signal : Signal) : (Call.requesting signal : Run Raised Reply).KeepsTo c :=
    Continues.act fun s => hc.request s signal
  have does {d : Deed} (hd : d ∈ made.deeds) {s t : Session} : d.Changes s t → c.done s t :=
    hc.deed (h.deeds d hd)
  cases made with
  | set key value => exact Continues.act fun s => does List.mem_cons_self (.set value)
  | remove key => exact Continues.act fun s => does List.mem_cons_self .remove
  | incr key amount => exact Continues.act fun s => does List.mem_cons_self (.set _)
  | breakLevels count => exact request _
  | breakToLabel label => exact request _
  | exit => exact request _
  | request signal => exact request signal
  | takeBreak => exact Continues.act fun s => hc.pend s none
  | eval condition => exact Continues.act fun s => hc.ask s condition
  | emit type data => exact Continues.act fun s => does List.mem_cons_self (.emit data)
  | settle label =>
    exact hc.bind (Continues.act fun s => hc.toAllows.settle s label) fun _ => hc.pure _
  | proceed => exact hc.bind (hc.proceed.raising _) fun _ => hc.pure _
  | tryProceed =>
    refine hc.bind hc.proceed.attempt fun ended => ?_
    cases ended <;> exact hc.pure _
  | resume settlement => exact hc.bind ((hc.resume settlement).raising _) fun _ => hc.pure _
  | runPipeline p =>
    have walks := hc.walk (h.pipelines p List.mem_cons_self)
    exact hc.bind (walks.raising _) fun _ => hc.pure _
  | runBoundary p =>
    have walks := hc.walk (h.pipelines p List.mem_cons_self)
    exact hc.bind ((Walk.runBoundary_keepsTo hc.toAllows walks).raising _) fun _ => hc.pure _
  | finish flow => exact hc.pure _
  | raise raised => exact hc.raise raised
  | invoke => exact hc.bind hc.invoke fun _ => hc.pure _
  | _ => exact hc.read _

/-- Whatever an admitted script decides, each of its calls keeps to the conduct. -/
theorem follow (hc : c.Carries may admits start) {script : Script}
    (h : script.Admitted may admits) : (script.follow start).KeepsTo c := by
  induction h with
  | finish => exact hc.pure _
  | raise => exact hc.raise _
  | @note entry rest _ ih =>
    have noted : (Run.update (·.note entry) : Run Raised Unit).KeepsTo c :=
      Continues.update fun s => hc.note s entry
    exact hc.bind noted fun _ => ih
  | @call made next hmade _ ih =>
    have marked : (Run.update (·.mark .call) : Run Raised Unit).KeepsTo c :=
      Continues.update fun s => hc.mark s rfl
    exact hc.bind marked fun _ => hc.bind (hc.perform hmade).attempt ih

theorem script (hc : c.Carries may admits start) (name : String) {script : Script}
    (h : script.Admitted may admits) : (script.run start name).KeepsTo c := by
  refine hc.bind ((hc.follow h).raising _) fun flow => ?_
  cases flow with
  | goOn => exact hc.proceed
  | halt => exact hc.pure ()

end Carries

end Conduct

end ValvePipeline
