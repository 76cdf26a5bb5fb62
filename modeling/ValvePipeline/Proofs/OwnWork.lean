import ValvePipeline.Proofs.Conduct
import ValvePipeline.Proofs.FlatWork

/-!
The own work of a valve. It is made of walks of the valve's children and of a few steps that the engine
takes on a session. What holds of these, and of every computation whose parts it holds of, holds of the
own work of every valve. In particular, the work of a valve keeps to every conduct that allows its deeds
and that is kept by the walks and the rest.
-/

set_option autoImplicit false
set_option relaxedAutoImplicit false

namespace ValvePipeline

/-- What a step of the engine sets: a name that a valve is there to set, the counter of a loop, or the
failure that a guarded valve has caught. -/
inductive Setting where
  | named (key : String)
  | counter (config : LoopConfig)
  | failure (config : CatchConfig)

def Setting.key : Setting → String
  | named key => key
  | counter config => config.counter
  | failure config => config.exceptionName

namespace Valve

def settings : Valve → List Setting
  | .setAttribute key _ => [.named key]
  | .loop _ config => [.counter config]
  | .whileLoop _ _ config => [.counter config]
  | .guarded (some _) (some _) _ config => [.failure config]
  | _ => []

def deeds (v : Valve) : List Deed :=
  v.settings.map (.set ·.key)

def conditions : Valve → List Condition
  | .breakIf condition _ => [condition]
  | .breakUnless condition _ => [condition]
  | .whileLoop condition _ _ => [condition]
  | .ifThen condition _ => [condition]
  | .choose branches _ => branches.map (·.condition)
  | _ => []

def counter? : Valve → Option String
  | .record _ counter => counter
  | _ => none

inductive Admitted (may : Deed → Prop) (admits : Pipeline → Prop) : Valve → Prop
  | builtIn {v : Valve} : (∀ name script, v ≠ .scripted name script) → (∀ d ∈ v.deeds, may d) →
    (∀ p ∈ v.children, admits p) → Admitted may admits v
  | scripted {name : String} {script : Script} : script.Admitted may admits →
    Admitted may admits (.scripted name script)

theorem admitted (v : Valve) : v.Admitted (fun _ => True) fun _ => True := by
  cases v with
  | scripted name script => exact .scripted script.admitted
  | _ => exact .builtIn nofun (fun _ _ => trivial) fun _ _ => trivial

end Valve

/-- What a guarded valve does after its first block has failed, up to its last block. -/
def Guarded.recover {ε : Type} (walk : Walker) (catchBlock : Option Pipeline) (config : CatchConfig)
    (failure : ValveFailure) : Run ε (Except ValveFailure (Option Pipeline)) :=
  match catchBlock with
  | none => return .error failure
  | some handler => do
    Run.update (catching config failure)
    runBlock walk handler

def Flat.close (walk : Walker) (finallyBlock : Option Pipeline)
    (ending : Except ValveFailure (Option Pipeline)) : Run ValveFailure Unit := do
  let waiting ← Run.act fun s => (s.pending, s.dropBreak)
  match finallyBlock with
  | none => conclude ending waiting
  | some block => runLast walk block (conclude ending waiting)

/-- What is left of the own work of a guarded valve when its first block has failed. -/
def Guarded.mend (walk : Walker) (catchBlock finallyBlock : Option Pipeline) (config : CatchConfig)
    (failure : ValveFailure) : Run ValveFailure Unit := do
  let ending ← recover walk catchBlock config failure
  Flat.close walk finallyBlock ending

theorem Flat.run_guarded_of_raised {walk : Walker} {block : Pipeline} {s t : Session}
    {failure : ValveFailure} (h : (walk block).run s = .raised failure t)
    (catchBlock finallyBlock : Option Pipeline) (config : CatchConfig) :
    (Flat.guarded walk (some block) catchBlock finallyBlock config).run s =
      (Guarded.mend walk catchBlock finallyBlock config failure).run t := by
  have recovered : (Guarded.runProtected walk (some block) catchBlock config :
      Run ValveFailure _).run s = (Guarded.recover walk catchBlock config failure).run t := by
    simp only [Guarded.runProtected, Guarded.runBlock, Run.run_bind, Run.run_attempt, h, Run.run_pure]
    cases catchBlock <;> rfl
  show (Guarded.runProtected walk (some block) catchBlock config >>= close walk finallyBlock).run s = _
  rw [Run.run_bind, recovered, Guarded.mend, Run.run_bind]

/-- A habit of the engine: a property of computations that one has if its parts have it, and that the
steps have which the engine takes for a valve. Steps that ask a condition, record a value or set a name
need only have it for some conditions, counters and names. -/
structure Habit (P : (ε α : Type) → Run ε α → Prop) (asks : Condition → Prop)
    (records : Option String → Prop) (sets : Setting → Prop) : Prop where
  pure {ε α : Type} (a : α) : P ε α (Pure.pure a)
  raise {ε α : Type} (e : ε) : P ε α (Run.raise e)
  outOfSteps {ε α : Type} : P ε α Run.outOfSteps
  bind {ε α β : Type} {x : Run ε α} {f : α → Run ε β} : P ε α x → (∀ a, P ε β (f a)) →
    P ε β (x >>= f)
  attempt {ε δ α : Type} {x : Run ε α} : P ε α x → P δ (Except ε α) (Run.attempt x)
  log {ε : Type} (severity : Severity) (message : Session → String)
    (fields : Session → List (String × Json)) :
    P ε Unit (Run.update fun s => s.log severity (message s) (fields s))
  record {ε : Type} (name : String) {counter : Option String} : records counter →
    P ε Unit (Run.update fun s => s.note (Valve.recordEntry name counter s.attributes))
  set {ε : Type} {key : String} (value : Json) : sets (.named key) →
    P ε Unit (Run.update (·.setAttribute key value))
  ask {ε : Type} {condition : Condition} : asks condition → P ε Bool (Run.act (·.ask condition))
  request {ε : Type} (signal : Signal) : P ε Unit (Run.update (·.requestBreak signal))
  settle {ε : Type} (label : Option String) : P ε Settlement (Walk.settle label)
  setAside {ε : Type} : P ε (Option Signal) (Run.act fun s => (s.pending, s.dropBreak))
  bringBack {ε : Type} (signal : Signal) :
    P ε Unit (Run.update fun s => { s with pending := some signal })
  begin {ε : Type} {config : LoopConfig} (count : Nat) : sets (.counter config) →
    P ε Unit (Run.update (Loop.begin config count))
  catching {ε : Type} {config : CatchConfig} (failure : ValveFailure) :
    sets (.failure config) → P ε Unit (Run.update (Guarded.catching config failure))

namespace Habit

variable {P : (ε α : Type) → Run ε α → Prop} {asks : Condition → Prop}
  {records : Option String → Prop} {sets : Setting → Prop} {ε : Type} {walk : Walker}

theorem runBoundary (h : Habit P asks records sets) {p : Pipeline}
    (hwalk : P ValveFailure WalkEnd (walk p)) :
    P ValveFailure Settlement (Walk.runBoundary walk p) :=
  h.bind hwalk fun _ => h.settle p.label

theorem block (h : Habit P asks records sets) {p : Pipeline}
    (hwalk : P ValveFailure WalkEnd (walk p)) : P ValveFailure Unit (Flat.block walk p) :=
  h.bind (h.runBoundary hwalk) fun _ => h.pure ()

theorem iterate (h : Habit P asks records sets) {body : Pipeline}
    (hwalk : P ValveFailure WalkEnd (walk body)) {condition : Option Condition}
    (hasks : ∀ c ∈ condition, asks c) {config : LoopConfig} (hset : sets (.counter config))
    (steps count : Nat) :
    P ValveFailure Unit (Flat.iterate walk condition body config steps count) := by
  induction steps generalizing count with
  | zero => exact h.outOfSteps
  | succ steps ih =>
    have asked : P ValveFailure Bool (Loop.asksForMore condition) := by
      cases condition with
      | none => exact h.pure true
      | some condition => exact h.ask (hasks condition rfl)
    refine h.bind asked fun more => ?_
    cases more with
    | false => exact h.log ..
    | true =>
      rw [if_pos rfl]
      split
      · exact h.bind (h.log ..) fun _ => h.raise _
      · refine h.bind (h.begin count hset) fun _ => h.bind (h.runBoundary hwalk) fun settlement => ?_
        cases settlement with
        | completed => exact ih (count + 1)
        | absorbed => exact h.pure ()
        | propagated => exact h.pure ()

theorem settles (h : Habit P asks records sets) (origin : Option Pipeline) :
    P ValveFailure Unit (Flat.settle origin) :=
  h.bind (h.settle _) fun _ => h.pure ()

theorem conclude (h : Habit P asks records sets)
    (ending : Except ValveFailure (Option Pipeline)) (waiting : Option Signal) :
    P ValveFailure Unit (Flat.conclude ending waiting) := by
  cases ending with
  | error failure => exact h.raise failure
  | ok origin =>
    cases waiting with
    | none => exact h.pure ()
    | some signal => exact h.bind (h.bringBack signal) fun _ => h.settles origin

theorem runBlock (h : Habit P asks records sets) {p : Pipeline}
    (hwalk : P ValveFailure WalkEnd (walk p)) :
    P ε (Except ValveFailure (Option Pipeline)) (Guarded.runBlock walk p) := by
  refine h.bind (h.attempt hwalk) fun ended => ?_
  cases ended with
  | error failure => exact h.pure _
  | ok ended => cases ended <;> exact h.pure _

theorem recover (h : Habit P asks records sets) {catchBlock : Option Pipeline}
    (hcatch : ∀ p ∈ catchBlock, P ValveFailure WalkEnd (walk p)) {config : CatchConfig}
    (hset : catchBlock.isSome → sets (.failure config)) (failure : ValveFailure) :
    P ε (Except ValveFailure (Option Pipeline)) (Guarded.recover walk catchBlock config failure) := by
  cases catchBlock with
  | none => exact h.pure _
  | some handler =>
    exact h.bind (h.catching failure (hset rfl)) fun _ => h.runBlock (hcatch handler rfl)

theorem close (h : Habit P asks records sets) {finallyBlock : Option Pipeline}
    (hlast : ∀ p ∈ finallyBlock, P ValveFailure WalkEnd (walk p))
    (ending : Except ValveFailure (Option Pipeline)) :
    P ValveFailure Unit (Flat.close walk finallyBlock ending) := by
  refine h.bind h.setAside fun waiting => ?_
  cases finallyBlock with
  | none => exact h.conclude ending waiting
  | some block =>
    refine h.bind (hlast block rfl) fun ended => ?_
    cases ended with
    | completed => exact h.conclude ending waiting
    | unwound => exact h.settles (some block)

theorem mend (h : Habit P asks records sets) {catchBlock finallyBlock : Option Pipeline}
    (hcatch : ∀ p ∈ catchBlock, P ValveFailure WalkEnd (walk p))
    (hlast : ∀ p ∈ finallyBlock, P ValveFailure WalkEnd (walk p)) {config : CatchConfig}
    (hset : catchBlock.isSome → sets (.failure config)) (failure : ValveFailure) :
    P ValveFailure Unit (Guarded.mend walk catchBlock finallyBlock config failure) :=
  h.bind (h.recover hcatch hset failure) fun ending => h.close hlast ending

theorem runProtected (h : Habit P asks records sets) {tryBlock catchBlock : Option Pipeline}
    (htry : ∀ p ∈ tryBlock, P ValveFailure WalkEnd (walk p))
    (hcatch : ∀ p ∈ catchBlock, P ValveFailure WalkEnd (walk p)) {config : CatchConfig}
    (hset : tryBlock.isSome → catchBlock.isSome → sets (.failure config)) :
    P ε (Except ValveFailure (Option Pipeline))
      (Guarded.runProtected walk tryBlock catchBlock config) := by
  cases tryBlock with
  | none => exact h.pure _
  | some block =>
    refine h.bind (h.runBlock (htry block rfl)) fun ending => ?_
    cases ending with
    | ok origin => exact h.pure _
    | error failure =>
      have recovers := h.recover (ε := ε) hcatch (hset rfl) failure
      cases catchBlock with
      | none => exact recovers
      | some handler => exact recovers

theorem guarded (h : Habit P asks records sets)
    {tryBlock catchBlock finallyBlock : Option Pipeline}
    (htry : ∀ p ∈ tryBlock, P ValveFailure WalkEnd (walk p))
    (hcatch : ∀ p ∈ catchBlock, P ValveFailure WalkEnd (walk p))
    (hlast : ∀ p ∈ finallyBlock, P ValveFailure WalkEnd (walk p)) {config : CatchConfig}
    (hset : tryBlock.isSome → catchBlock.isSome → sets (.failure config)) :
    P ValveFailure Unit (Flat.guarded walk tryBlock catchBlock finallyBlock config) :=
  h.bind (h.runProtected htry hcatch hset) fun ending => h.close hlast ending

theorem select (h : Habit P asks records sets) {branches : List Branch}
    {otherwise : Option Pipeline} {α : Type} {f : Option Pipeline → Run ValveFailure α}
    (hasks : ∀ b ∈ branches, asks b.condition)
    (hbranches : ∀ b ∈ branches, P ValveFailure α (f (some b.block)))
    (hotherwise : P ValveFailure α (f otherwise)) :
    P ValveFailure α (Valve.work.select branches otherwise >>= f) := by
  induction branches with
  | nil => exact hotherwise
  | cons branch branches ih =>
    simp only [Valve.work.select, bind_assoc]
    refine h.bind (h.ask (hasks branch List.mem_cons_self)) fun answer => ?_
    cases answer with
    | true => exact hbranches branch List.mem_cons_self
    | false =>
      exact ih (fun b hb => hasks b (List.mem_cons_of_mem _ hb)) fun b hb =>
        hbranches b (List.mem_cons_of_mem _ hb)

theorem breakWhen (h : Habit P asks records sets) (wanted : Bool) (signal : Signal) :
    P ValveFailure Unit (Flat.breakWhen wanted signal) := by
  cases wanted with
  | true => exact h.request signal
  | false => exact h.pure ()

/-- The own work of a valve has a habit if the walks of its children have it. -/
theorem own (h : Habit P asks records sets) (steps : Nat) {v : Valve}
    (hasks : ∀ c ∈ v.conditions, asks c) (hrecords : records v.counter?)
    (hsets : ∀ setting ∈ v.settings, sets setting)
    (hwalk : ∀ p ∈ v.children, P ValveFailure WalkEnd (walk p)) :
    P ValveFailure Unit (Flat.work.own walk steps v) := by
  cases v with
  | passThrough => exact h.pure ()
  | setAttribute key value => exact h.set value (hsets _ List.mem_cons_self)
  | log severity message => exact h.log ..
  | record name counter => exact h.record name hrecords
  | failing name message => exact h.raise _
  | scripted name script => exact h.pure ()
  | breakWith signal => exact h.request signal
  | exit => exact h.request .exit
  | breakIf condition signal =>
    exact h.bind (h.ask (hasks condition List.mem_cons_self)) fun answer => h.breakWhen answer signal
  | breakUnless condition signal =>
    exact h.bind (h.ask (hasks condition List.mem_cons_self)) fun answer =>
      h.breakWhen (!answer) signal
  | loop body config =>
    exact h.iterate (hwalk body List.mem_cons_self) (fun c hc => absurd hc (Option.not_mem_none c))
      (hsets _ List.mem_cons_self) steps 0
  | whileLoop condition body config =>
    refine h.iterate (hwalk body List.mem_cons_self) ?_ (hsets _ List.mem_cons_self) steps 0
    rintro c ⟨⟩
    exact hasks condition List.mem_cons_self
  | ifThen condition p =>
    refine h.bind (h.ask (hasks condition List.mem_cons_self)) fun answer => ?_
    cases answer with
    | true => exact h.block (hwalk p List.mem_cons_self)
    | false => exact h.pure ()
  | choose branches otherwise =>
    refine h.select (fun b hb => hasks _ (List.mem_map_of_mem hb)) (fun b hb => ?_) ?_
    · exact h.block (hwalk b.block (List.mem_append_left _ (List.mem_map_of_mem hb)))
    · cases otherwise with
      | none => exact h.pure ()
      | some p => exact h.block (hwalk p (List.mem_append_right _ List.mem_cons_self))
  | sub p => exact h.block (hwalk p List.mem_cons_self)
  | guarded tryBlock catchBlock finallyBlock config =>
    refine h.guarded (fun p hp => hwalk p ?_) (fun p hp => hwalk p ?_) (fun p hp => hwalk p ?_)
      fun htry hcatch => ?_
    case refine_4 =>
      obtain ⟨p, rfl⟩ := Option.isSome_iff_exists.mp htry
      obtain ⟨q, rfl⟩ := Option.isSome_iff_exists.mp hcatch
      exact hsets _ List.mem_cons_self
    all_goals simp_all [Valve.children]

end Habit

section Conducts

variable {c : Conduct} {may : Deed → Prop} {admits : Pipeline → Prop} {start : Starter}
  {walk : Walker} {ε : Type}

theorem Conduct.Allows.habit (hc : c.Allows may) :
    Habit (fun _ _ x => x.KeepsTo c) (fun _ => True) (fun _ => True) fun setting =>
      may (.set setting.key) where
  pure := hc.pure
  raise := hc.raise
  outOfSteps := hc.outOfSteps
  bind := hc.bind
  attempt hx := hx.attempt
  log _ _ _ := Continues.update fun s => hc.log s ..
  record _ _ _ := Continues.update fun s => hc.note s _
  set value hset := Continues.update fun _ => hc.deed hset (.set value)
  ask {_ condition} _ := Continues.act fun s => hc.ask s condition
  request signal := Continues.update fun s => hc.request s signal
  settle label := Continues.act fun s => hc.settle s label
  setAside := Continues.act fun s => hc.pend s none
  bringBack signal := Continues.update fun s => hc.pend s (some signal)
  begin count hset := Continues.update (hc.begin _ hset count)
  catching failure hset := Continues.update (hc.catching _ hset failure)

theorem Guarded.runBlock_keepsTo (hc : c.Allows may) {block : Pipeline}
    (hwalk : (walk block).KeepsTo c) :
    (runBlock walk block : Run ε (Except ValveFailure (Option Pipeline))).KeepsTo c :=
  hc.habit.runBlock hwalk

theorem Flat.own_keepsTo (hc : c.Allows may) (steps : Nat) {v : Valve}
    (hdeeds : ∀ d ∈ v.deeds, may d) (hwalk : ∀ p ∈ v.children, (walk p).KeepsTo c) :
    (work.own walk steps v).KeepsTo c :=
  hc.habit.own steps (fun _ _ => trivial) trivial (fun _ hset => hdeeds _ (List.mem_map_of_mem hset)) hwalk

theorem Conduct.Carries.work (hc : c.Carries may admits start) (steps : Nat) {v : Valve}
    (h : v.Admitted may admits) : (v.work start steps).KeepsTo c := by
  cases h with
  | builtIn hbuiltIn hdeeds hchildren =>
    rw [Valve.work_eq_own start steps hbuiltIn]
    have owns := Flat.own_keepsTo hc.toAllows steps hdeeds fun p hp => hc.walk (hchildren p hp)
    exact hc.bind owns fun _ => hc.proceed
  | scripted hscript => exact hc.script _ hscript

end Conducts

/-! The computations of the engine, under a conduct that covers all that it does. -/

section Covered

variable {c : Conduct} {start : Starter}

theorem Walk.resumeAfter_keepsTo (hc : c.Covers) (hstart : ∀ v, (start v).KeepsTo c)
    (settlement : Settlement) : (resumeAfter start settlement).KeepsTo c :=
  (hc.carries hstart).resume settlement

theorem Walk.runBlock_keepsTo (hc : c.Covers) (hstart : ∀ v, (start v).KeepsTo c) (p : Pipeline) :
    (runBlock start p).KeepsTo c :=
  hc.bind (runBoundary_keepsTo hc.toAllows (runPipeline_keepsTo hc hstart p))
    (resumeAfter_keepsTo hc hstart)

theorem Loop.iterate_keepsTo (hc : c.Covers) (hstart : ∀ v, (start v).KeepsTo c)
    (condition : Option Condition) (body : Pipeline) (config : LoopConfig) (steps count : Nat) :
    (iterate start condition body config steps count).KeepsTo c := by
  rw [iterate_eq]
  exact hc.bind (hc.habit.iterate (Walk.runPipeline_keepsTo hc hstart body) (fun _ _ => trivial)
    trivial steps count) fun _ => Walk.proceed_keepsTo hc hstart

theorem Guarded.conclude_keepsTo (hc : c.Covers) (hstart : ∀ v, (start v).KeepsTo c)
    (ending : Except ValveFailure (Option Pipeline)) (waiting : Option Signal) :
    (conclude start ending waiting).KeepsTo c := by
  rw [conclude_eq]
  exact hc.bind (hc.habit.conclude ending waiting) fun _ => Walk.proceed_keepsTo hc hstart

theorem Valve.select_keepsTo (hc : c.Covers) (branches : List Branch)
    (otherwise : Option Pipeline) : (work.select branches otherwise).KeepsTo c := by
  have chosen : (work.select branches otherwise >>= pure).KeepsTo c :=
    hc.habit.select (fun _ _ => trivial) (fun _ _ => hc.pure _) (hc.pure _)
  rwa [bind_pure] at chosen

theorem Call.perform_keepsTo (hc : c.Covers) (hstart : ∀ v, (start v).KeepsTo c) (call : Call) :
    (call.perform start).KeepsTo c :=
  (hc.carries hstart).perform call.admitted

theorem Script.follow_keepsTo (hc : c.Covers) (hstart : ∀ v, (start v).KeepsTo c)
    (script : Script) : (script.follow start).KeepsTo c :=
  (hc.carries hstart).follow script.admitted

/-- Every valve keeps to a conduct that covers what the engine does. -/
theorem Valve.run_keepsTo (hc : c.Covers) (steps : Nat) (v : Valve) : (run steps v).KeepsTo c := by
  induction steps generalizing v with
  | zero => exact hc.outOfSteps
  | succ steps ih => exact (hc.carries ih).work steps v.admitted

end Covered

end ValvePipeline
