import ValvePipeline.Engine

/-!
Pipelines as loops. The flat interpreter runs the valves of a pipeline one after the other: each does
its own work, and when it has come back the next one starts. There is no call for the rest of the
pipeline, so only pipelines whose scripts make no such call can be run in this way.
-/

set_option autoImplicit false
set_option relaxedAutoImplicit false

namespace ValvePipeline

namespace Call

def goesOn : Call → Bool
  | .proceed | .tryProceed | .resume _ => true
  | _ => false

def pipelines : Call → List Pipeline
  | .runPipeline p => [p]
  | .runBoundary p => [p]
  | _ => []

end Call

mutual

/-- No script of the pipeline, however deep, calls for the rest of its own pipeline. -/
inductive Pipeline.Sequential : Pipeline → Prop
  | intro {p : Pipeline} : (∀ v ∈ p.valves, Valve.Sequential v) → Pipeline.Sequential p

inductive Valve.Sequential : Valve → Prop
  | builtIn {v : Valve} : (∀ name script, v ≠ .scripted name script) →
    (∀ p ∈ v.children, Pipeline.Sequential p) → Valve.Sequential v
  | scripted {name : String} {script : Script} : Script.Sequential script →
    Valve.Sequential (.scripted name script)

inductive Script.Sequential : Script → Prop
  | finish {flow : Flow} : Script.Sequential (.finish flow)
  | raise {raised : Raised} : Script.Sequential (.raise raised)
  | note {entry : String} {rest : Script} : Script.Sequential rest →
    Script.Sequential (.note entry rest)
  | call {made : Call} {next : Except Raised Reply → Script} : made.goesOn = false →
    (∀ p ∈ made.pipelines, Pipeline.Sequential p) → (∀ reply, Script.Sequential (next reply)) →
    Script.Sequential (.call made next)

end

namespace Flat

def iterate (walk : Walker) (condition : Option Condition) (body : Pipeline)
    (config : LoopConfig) : Nat → Nat → Run ValveFailure Unit
  | 0, _ => Run.outOfSteps
  | steps + 1, count => do
    if ← Loop.asksForMore condition then
      if Loop.isSpent config count then
        Run.update (·.log .warn "Loop exceeded its iteration bound"
          [("max_loop_count", .int config.bound), ("counter", .string config.counter)])
        Run.raise (.tooManyLoops config.bound)
      else
        Run.update (Loop.begin config count)
        match ← Walk.runBoundary walk body with
        | .completed => iterate walk condition body config steps (count + 1)
        | .absorbed => return ()
        | .propagated => return ()
    else
      Run.update (·.log .debug "Loop condition false; stopping" [("iterations", .nat count)])

def settle (origin : Option Pipeline) : Run ValveFailure Unit := do
  let _ ← Walk.settle (origin.bind (·.label))

def conclude (ending : Except ValveFailure (Option Pipeline)) (waiting : Option Signal) :
    Run ValveFailure Unit :=
  match ending, waiting with
  | .error failure, _ => Run.raise failure
  | .ok origin, some signal => do
    Run.update fun s => { s with pending := some signal }
    settle origin
  | .ok _, none => return ()

/-- Runs the last block of a guarded valve. A signal that it leaves takes the place of what waited. -/
def runLast (walk : Walker) (block : Pipeline) (conclude : Run ValveFailure Unit) :
    Run ValveFailure Unit := do
  match ← walk block with
  | .unwound => settle (some block)
  | .completed => conclude

def guarded (walk : Walker) (tryBlock catchBlock finallyBlock : Option Pipeline)
    (config : CatchConfig) : Run ValveFailure Unit := do
  let ending ← Guarded.runProtected walk tryBlock catchBlock config
  let waiting ← Run.act fun s => (s.pending, s.dropBreak)
  match finallyBlock with
  | none => conclude ending waiting
  | some block => runLast walk block (conclude ending waiting)

def block (walk : Walker) (p : Pipeline) : Run ValveFailure Unit := do
  let _ ← Walk.runBoundary walk p

def perform (walk : Walker) : Call → Run Raised Reply
  | .runPipeline p => do
    let ended ← Run.raising (walk p) .valve
    return .answer ended.toJson
  | .runBoundary p => do
    let settlement ← Run.raising (Walk.runBoundary walk p) .valve
    return .answer settlement.toJson
  | .invoke => do
    return .answer (Call.invocationJson (← Walk.invoke walk))
  | made => made.perform fun _ => return ()

def follow (walk : Walker) : Script → Run Raised Flow
  | .finish flow => return flow
  | .raise raised => Run.raise raised
  | .note entry rest => do
    Run.update (·.note entry)
    follow walk rest
  | .call made next => do
    Run.update (·.mark .call)
    let reply ← Run.attempt (perform walk made)
    follow walk (next reply)

def breakWhen (wanted : Bool) (signal : Signal) : Run ValveFailure Unit :=
  if wanted then Run.update (·.requestBreak signal) else return ()

/-- The own work of a valve. A valve other than a scripted one does not say how to go on: after it the
rest of the pipeline runs unless a signal is pending. -/
def work (walk : Walker) (steps : Nat) : Valve → Run ValveFailure Flow
  | .scripted name script => Run.raising (follow walk script) (Raised.underName name)
  | valve => do
    own valve
    return .goOn
where
  own : Valve → Run ValveFailure Unit
    | .passThrough => return ()
    | .setAttribute key value => Run.update (·.setAttribute key value)
    | .log severity message =>
      Run.update fun s =>
        s.log severity (Template.render message s.attributes) [("depth", .nat s.depth)]
    | .record name counter =>
      Run.update fun s => s.note (Valve.recordEntry name counter s.attributes)
    | .failing name message => Run.raise (.failed name { message })
    | .scripted _ _ => return ()
    | .breakWith signal => Run.update (·.requestBreak signal)
    | .exit => Run.update (·.requestBreak .exit)
    | .breakIf condition signal => do
      let answer ← Run.act (·.ask condition)
      breakWhen answer signal
    | .breakUnless condition signal => do
      let answer ← Run.act (·.ask condition)
      breakWhen (!answer) signal
    | .loop body config => iterate walk none body config steps 0
    | .whileLoop condition body config => iterate walk (some condition) body config steps 0
    | .ifThen condition p => do
      if ← Run.act (·.ask condition) then block walk p
    | .choose branches otherwise => do
      match ← Valve.work.select branches otherwise with
      | some p => block walk p
      | none => return ()
    | .sub p => block walk p
    | .guarded tryBlock catchBlock finallyBlock config =>
      guarded walk tryBlock catchBlock finallyBlock config

theorem work_eq_own (walk : Walker) (steps : Nat) {v : Valve}
    (hv : ∀ name script, v ≠ .scripted name script) :
    work walk steps v = work.own walk steps v >>= fun _ => return .goOn := by
  cases v with
  | scripted name script => exact absurd rfl (hv name script)
  | _ => rfl

def turnTo (i : Nat) (s : Session) : Session :=
  match s.frames with
  | [] => s
  | frame :: outer => s.enterValve frame outer i

/-- Runs the valves of the innermost walk from a place on, one after the other. A failure, a pending
signal or a script that halts ends the loop. -/
def go (own : Valve → Run ValveFailure Flow) : Nat → List Valve → Run ValveFailure Unit
  | _, [] => return ()
  | i, valve :: valves => do
    if (← Run.read (·.pending)).isSome then
      return ()
    Run.update (turnTo i)
    match ← own valve with
    | .goOn => go own (i + 1) valves
    | .halt => return ()

def walk : Nat → Walker
  | 0, _ => Run.outOfSteps
  | steps + 1, p => do
    Run.update (·.enterPipeline p)
    Run.afterwards (go (work (walk steps) steps) 0 p.valves) Session.leavePipeline
    Run.read fun s => if s.pending.isSome then .unwound else .completed

end Flat

def Session.invokeFlat (steps : Nat) (s : Session) : Ending Empty (Except RunFailure Outcome) :=
  (Walk.invoke (Flat.walk steps)).run s

end ValvePipeline
