import ValvePipeline.Condition
import ValvePipeline.Failure
import ValvePipeline.Log
import ValvePipeline.Outcome
import ValvePipeline.Text.Blank

/-!
Pipelines: lists of valves that form one scope. Composite valves hold pipelines of their own, and a
scripted valve holds code that makes calls on the engine, some of which run further pipelines.
-/

set_option autoImplicit false
set_option relaxedAutoImplicit false

namespace ValvePipeline

/-- A name without the blanks around it, or the default when nothing is left. -/
def nameOr (default name : String) : String :=
  if Text.trim name = "" then default else Text.trim name

structure LoopConfig where
  /-- The greatest number of iterations; zero or less sets no bound. -/
  bound : Int := 10
  /-- The attribute that holds the number of the iteration. -/
  counter : String := "loopCount"
  deriving DecidableEq, Repr

namespace LoopConfig

def normalized (c : LoopConfig) : LoopConfig :=
  { c with counter := nameOr "loopCount" c.counter }

def isBounded (c : LoopConfig) : Bool :=
  0 < c.bound

def toJson (c : LoopConfig) : Json :=
  .ofFields [("maxLoopCount", .int c.bound), ("loopCounterName", .string c.counter)]

def ofJson? (value : Json) : Option LoopConfig := do
  match ← value.parts? ["maxLoopCount", "loopCounterName"] 0 with
  | [bound, counter] =>
    return { bound := ← Json.defaulted? Json.int64? 10 bound
             counter := ← Json.defaulted? Json.string? "loopCount" counter }
  | _ => none

end LoopConfig

structure CatchConfig where
  /-- The attribute that receives the failure. -/
  exceptionName : String := "exception"
  deriving DecidableEq, Repr

namespace CatchConfig

def normalized (c : CatchConfig) : CatchConfig :=
  { exceptionName := nameOr "exception" c.exceptionName }

def toJson (c : CatchConfig) : Json :=
  .ofFields [("exceptionName", .string c.exceptionName)]

def ofJson? (value : Json) : Option CatchConfig := do
  match ← value.parts? ["exceptionName"] 0 with
  | [name] => return { exceptionName := ← Json.defaulted? Json.string? "exception" name }
  | _ => none

end CatchConfig

/-- What a script wants after its calls. -/
inductive Flow where
  /-- The rest of the pipeline runs. -/
  | goOn
  /-- The pipeline stops without a signal. -/
  | halt
  deriving DecidableEq, Repr

inductive Reply where
  | answer (value : Json)
  /-- The script ends here. -/
  | finished (flow : Flow)

mutual

structure Pipeline where
  label : Option String
  valves : List Valve

structure Branch where
  condition : Condition
  block : Pipeline

inductive Valve where
  | passThrough
  | setAttribute (key : String) (value : Json)
  | log (severity : Severity) (message : String)
  /-- Writes its name to the journal, with the value of an attribute if that is set, and goes on. -/
  | record (name : String) (counter : Option String)
  | failing (name message : String)
  | scripted (name : String) (script : Script)
  | breakWith (signal : Signal)
  | exit
  | breakIf (condition : Condition) (signal : Signal)
  | breakUnless (condition : Condition) (signal : Signal)
  | loop (body : Pipeline) (config : LoopConfig)
  /-- Repeats its body as long as the condition holds. -/
  | whileLoop (condition : Condition) (body : Pipeline) (config : LoopConfig)
  | ifThen (condition : Condition) (block : Pipeline)
  /-- Runs the first branch whose condition holds, or else the last resort. -/
  | choose (branches : List Branch) (otherwise : Option Pipeline)
  | sub (pipeline : Pipeline)
  /-- Runs a block, hands its failure to another, and runs a last one in any case. -/
  | guarded (tryBlock catchBlock finallyBlock : Option Pipeline) (config : CatchConfig)

inductive Call where
  | set (key : String) (value : Json)
  | remove (key : String)
  | get (key : String)
  /-- Adds to a whole number, as in 64 bits; what is none counts as zero. -/
  | incr (key : String) (amount : Int)
  | keys
  | breakLevels (count : Nat)
  | breakToLabel (label : String)
  | exit
  | request (signal : Signal)
  | takeBreak
  | pending
  | isBroken
  | isInvoked
  | depth
  | index
  | name
  | findLabel (label : String)
  | eval (condition : Condition)
  | render (message : String)
  | emit (type : String) (data : Json)
  | settle (label : Option String)
  | proceed
  /-- Proceeds, and reports a failure in place of raising it. -/
  | tryProceed
  | resume (settlement : Settlement)
  | runPipeline (pipeline : Pipeline)
  | runBoundary (pipeline : Pipeline)
  /-- Ends the script. -/
  | finish (flow : Flow)
  | raise (raised : Raised)
  | invoke

/-- The code of a scripted valve. It may look at what a call gave back, a failure included, before
it decides how to go on. -/
inductive Script where
  | finish (flow : Flow)
  | raise (raised : Raised)
  | note (entry : String) (rest : Script)
  | call (call : Call) (next : Except Raised Reply → Script)

end

instance : Inhabited Pipeline := ⟨⟨none, []⟩⟩

namespace Pipeline

def empty : Pipeline := ⟨none, []⟩

def displayName (p : Pipeline) : String :=
  p.label.getD "<anonymous>"

end Pipeline

namespace Valve

/-- The child pipelines, in the order in which they are shown. -/
def children : Valve → List Pipeline
  | .loop body _ => [body]
  | .whileLoop _ body _ => [body]
  | .ifThen _ block => [block]
  | .choose branches otherwise => branches.map (·.block) ++ otherwise.toList
  | .sub pipeline => [pipeline]
  | .guarded tryBlock catchBlock finallyBlock _ =>
    tryBlock.toList ++ catchBlock.toList ++ finallyBlock.toList
  | _ => []

def name : Valve → String
  | .passThrough => "pass-through"
  | .setAttribute _ _ => "set-attribute"
  | .log _ _ => "log"
  | .record name _ => name
  | .failing name _ => name
  | .scripted name _ => name
  | .breakWith _ => "break"
  | .exit => "exit"
  | .breakIf _ _ => "break-if"
  | .breakUnless _ _ => "break-unless"
  | .loop _ _ => "loop"
  | .whileLoop _ _ _ => "while"
  | .ifThen _ _ => "if"
  | .choose _ _ => "choose"
  | .sub _ => "sub-pipeline"
  | .guarded _ _ _ _ => "try-catch-finally"

def describeLoop (config : LoopConfig) : String :=
  "max=" ++ toString config.bound ++ ", counter=" ++ config.counter

def describe : Valve → String
  | .setAttribute key value => "set-attribute(" ++ key ++ "=" ++ value.compact ++ ")"
  | .log _ message => "log(" ++ Text.quoted message ++ ")"
  | .breakWith signal => signal.display
  | .breakIf condition signal => "break-if(" ++ condition.inspect ++ ") -> " ++ signal.display
  | .breakUnless condition signal =>
    "break-unless(" ++ condition.inspect ++ ") -> " ++ signal.display
  | .loop _ config => "loop(" ++ describeLoop config ++ ")"
  | .whileLoop condition _ config =>
    "while(" ++ condition.inspect ++ ", " ++ describeLoop config ++ ")"
  | .ifThen condition _ => "if(" ++ condition.inspect ++ ")"
  | .choose branches otherwise =>
    "choose(whens=" ++ toString branches.length ++ ", otherwise=" ++
      toString otherwise.isSome ++ ")"
  | .guarded _ catchBlock finallyBlock config =>
    "try(catch=" ++ toString catchBlock.isSome ++ ", finally=" ++ toString finallyBlock.isSome ++
      ", exception=" ++ config.exceptionName ++ ")"
  | v => v.name

end Valve

end ValvePipeline
