import ValvePipeline.Guarded
import ValvePipeline.Loop
import ValvePipeline.Script

/-!
The engine: what each kind of valve does when it starts. Its work may start other valves, with a
smaller allowance of steps; a loop may also iterate no more often than the allowance says.
-/

set_option autoImplicit false
set_option relaxedAutoImplicit false

namespace ValvePipeline

namespace Valve

def recordEntry (name : String) (counter : Option String) (attributes : Attributes) : String :=
  match counter.bind attributes.get? with
  | some value => name ++ "[" ++ value.compact ++ "]"
  | none => name

def breakWhen (start : Starter) (wanted : Bool) (signal : Signal) : Run ValveFailure Unit :=
  if wanted then Run.update (·.requestBreak signal) else Walk.proceed start

def work (start : Starter) (steps : Nat) : Valve → Run ValveFailure Unit
  | .passThrough => Walk.proceed start
  | .setAttribute key value => do
    Run.update (·.setAttribute key value)
    Walk.proceed start
  | .log severity message => do
    Run.update fun s =>
      s.log severity (Template.render message s.attributes) [("depth", .nat s.depth)]
    Walk.proceed start
  | .record name counter => do
    Run.update fun s => s.note (recordEntry name counter s.attributes)
    Walk.proceed start
  | .failing name message => Run.raise (.failed name { message })
  | .scripted name calls => Script.run start name calls
  | .breakWith signal => Run.update (·.requestBreak signal)
  | .exit => Run.update (·.requestBreak .exit)
  | .breakIf condition signal => do
    let answer ← Run.act (·.ask condition)
    breakWhen start answer signal
  | .breakUnless condition signal => do
    let answer ← Run.act (·.ask condition)
    breakWhen start (!answer) signal
  | .loop body config => Loop.iterate start none body config steps 0
  | .whileLoop condition body config => Loop.iterate start (some condition) body config steps 0
  | .ifThen condition block => do
    if ← Run.act (·.ask condition) then Walk.runBlock start block else Walk.proceed start
  | .choose branches otherwise => do
    match ← select branches otherwise with
    | some block => Walk.runBlock start block
    | none => Walk.proceed start
  | .sub pipeline => Walk.runBlock start pipeline
  | .guarded tryBlock catchBlock finallyBlock config =>
    Guarded.run start tryBlock catchBlock finallyBlock config
where
  /-- Asks the branches in order; the block of the first that holds, or else the last resort. -/
  select (branches : List Branch) (otherwise : Option Pipeline) :
      Run ValveFailure (Option Pipeline) :=
    match branches with
    | [] => return otherwise
    | branch :: branches => do
      if ← Run.act (·.ask branch.condition) then return some branch.block
      else select branches otherwise

def run : Nat → Valve → Run ValveFailure Unit
  | 0, _ => Run.outOfSteps
  | steps + 1, valve => valve.work (run steps) steps

end Valve

namespace Session

def start (p : Pipeline) (sink : Sink) (identity : Identity) : Session :=
  { identity, pipeline := p, sink }

def makeCall (steps : Nat) (call : Call) (s : Session) : Ending Raised Reply :=
  (call.perform (Valve.run steps)).run s

/-- Runs the pipeline of a session. This raises nothing: a failure is an answer here. -/
def invoke (steps : Nat) (s : Session) : Ending Empty (Except RunFailure Outcome) :=
  (Walk.invoke (Walk.runPipeline (Valve.run steps))).run s

end Session

end ValvePipeline
