import ValvePipeline.Template
import ValvePipeline.Walk

/-!
Scripts: code that makes calls on the engine and decides by what they give back. The plainest script
makes its calls in order: each call that answers leaves an entry in the journal, and a call that
raises ends the script.
-/

set_option autoImplicit false
set_option relaxedAutoImplicit false

namespace ValvePipeline

namespace Call

def verb : Call → String
  | .set _ _ => "set"
  | .remove _ => "remove"
  | .get _ => "get"
  | .incr _ _ => "incr"
  | .keys => "keys"
  | .breakLevels _ => "break"
  | .breakToLabel _ => "break_label"
  | .exit => "exit"
  | .request _ => "request"
  | .takeBreak => "take_break"
  | .pending => "pending"
  | .isBroken => "is_broken"
  | .isInvoked => "is_invoked"
  | .depth => "depth"
  | .index => "index"
  | .name => "name"
  | .findLabel _ => "find_label"
  | .eval _ => "eval"
  | .render _ => "render"
  | .emit _ _ => "emit"
  | .settle _ => "settle"
  | .proceed => "proceed"
  | .tryProceed => "try_proceed"
  | .resume _ => "resume"
  | .runPipeline _ => "run_pipeline"
  | .runBoundary _ => "run_boundary"
  | .finish .goOn => "continue"
  | .finish .halt => "halt"
  | .raise (.plain _) => "fail"
  | .raise (.valve _) => "fail_valve"
  | .invoke => "invoke"

/-- The sum of two whole numbers in signed 64-bit arithmetic, which wraps around. -/
def wrappingAdd (a b : Int) : Int :=
  (a + b).bmod (Nat.pow 2 64)

def signalJson (signal : Option Signal) : Json :=
  .option (signal.map Signal.toJson)

def natJson (n : Option Nat) : Json :=
  .option (n.map Json.nat)

def done : Json :=
  .string "ok"

def requesting {ε : Type} (signal : Signal) : Run ε Reply :=
  Run.act fun s =>
    let s := s.requestBreak signal
    (.answer (signalJson s.pending), s)

def telling {ε : Type} (f : Session → Json) : Run ε Reply :=
  Run.read fun s => .answer (f s)

def invocationJson : Except RunFailure Outcome → Json
  | .ok outcome =>
    .ofFields [("outcome", outcome.toJson), ("display", .string outcome.display)]
  | .error failure => failure.toJson

def perform (start : Starter) : Call → Run Raised Reply
  | .set key value =>
    Run.act fun s => (.answer (.option (s.attributes.get? key)), s.setAttribute key value)
  | .remove key =>
    Run.act fun s => (.answer (.option (s.attributes.get? key)), s.removeAttribute key)
  | .get key => telling fun s => .option (s.attributes.get? key)
  | .incr key amount =>
    Run.act fun s =>
      let sum := Json.int (wrappingAdd ((s.attributes.int? key).getD 0) amount)
      (.answer sum, s.setAttribute key sum)
  | .keys => telling fun s => .texts s.attributes.keys
  | .breakLevels count => requesting (.level count)
  | .breakToLabel label => requesting (.toLabel label)
  | .exit => requesting .exit
  | .request signal => requesting signal
  | .takeBreak => Run.act fun s => (.answer (signalJson s.pending), s.dropBreak)
  | .pending => telling fun s => .option (s.pending.map fun signal => .string signal.display)
  | .isBroken => telling fun s => .bool s.pending.isSome
  | .isInvoked => telling fun s => .bool s.invoked
  | .depth => telling fun s => .nat s.depth
  | .index => telling fun s => natJson s.index
  | .name => telling fun s => .string s.pipeline.displayName
  | .findLabel label => telling fun s => natJson (s.findLabel label)
  | .eval condition =>
    Run.act fun s =>
      let (answer, s) := s.ask condition
      (.answer (.bool answer), s)
  | .render message => telling fun s => .string (Template.render message s.attributes)
  | .emit type data => Run.act fun s => (.answer .null, s.emit type data)
  | .settle label => do
    let settlement ← Walk.settle label
    return .answer settlement.toJson
  | .proceed => do
    Run.raising (Walk.proceed start) .valve
    return .answer done
  | .tryProceed => do
    match ← Run.attempt (Walk.proceed start) with
    | .ok () => return .answer done
    | .error failure => return .answer failure.toJson
  | .resume settlement => do
    Run.raising (Walk.resumeAfter start settlement) .valve
    return .answer done
  | .runPipeline p => do
    let ended ← Run.raising (Walk.runPipeline start p) .valve
    return .answer ended.toJson
  | .runBoundary p => do
    let settlement ← Run.raising (Walk.runBoundary (Walk.runPipeline start) p) .valve
    return .answer settlement.toJson
  | .finish flow => return .finished flow
  | .raise raised => Run.raise raised
  | .invoke => do
    return .answer (invocationJson (← Walk.invoke (Walk.runPipeline start)))

end Call

namespace Script

def entry (valve : String) (call : Call) (answer : Json) : String :=
  valve ++ ":" ++ call.verb ++ "=" ++ answer.compact

/-- Makes the calls in order. A script that comes to its end wants the rest of the pipeline to
run. -/
def ofCalls (valve : String) : List Call → Script
  | [] => .finish .goOn
  | made :: calls =>
    .call made fun
      | .ok (.answer answer) => .note (entry valve made answer) (ofCalls valve calls)
      | .ok (.finished flow) => .finish flow
      | .error raised => .raise raised

def follow (start : Starter) : Script → Run Raised Flow
  | .finish flow => return flow
  | .raise raised => Run.raise raised
  | .note entry rest => do
    Run.update (·.note entry)
    follow start rest
  | .call made next => do
    Run.update (·.mark .call)
    let reply ← Run.attempt (made.perform start)
    follow start (next reply)

/-- Runs the script of a valve. What it raises without an origin is the valve's own failure. -/
def run (start : Starter) (valve : String) (script : Script) : Run ValveFailure Unit := do
  match ← Run.raising (follow start script) (Raised.underName valve) with
  | .goOn => Walk.proceed start
  | .halt => return ()

end Script

end ValvePipeline
