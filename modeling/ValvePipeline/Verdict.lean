import ValvePipeline.Attributes
import ValvePipeline.Failure
import ValvePipeline.Outcome

/-!
Expectations about runs and the verdicts on them. A failed comparison needs no message of its own; a
result of the wrong kind is shown.
-/

set_option autoImplicit false
set_option relaxedAutoImplicit false

namespace ValvePipeline

inductive Verdict where
  | met
  | missed (message : Option String)
  deriving DecidableEq, Repr

namespace Verdict

def ofBool (holds : Bool) : Verdict :=
  if holds then .met else .missed none

def completed (outcome : Outcome) : Verdict :=
  if outcome.isCompleted then .met
  else .missed (some ("Expected a completed invocation, got: " ++ outcome.display))

def unwound (outcome : Outcome) (signal : Signal) : Verdict :=
  ofBool (outcome.signal? == some signal)

def journal (entries expected : List String) : Verdict :=
  ofBool (entries == expected)

def attributeIs (attributes : Attributes) (key : String) (value : Json) : Verdict :=
  ofBool ((attributes.get? key).any (·.same value))

def tooManyLoops (failure : RunFailure) (bound : Int) : Verdict :=
  match failure.valveFailure? with
  | some (.tooManyLoops actual) => ofBool (actual == bound)
  | _ => .missed (some ("Expected a too-many-loops failure, got: " ++ failure.message))

def toJson : Verdict → Json
  | .met => .ofFields [("pass", .bool true)]
  | .missed message =>
    .ofFields [("pass", .bool false), ("message", .option (message.map .string))]

end Verdict

end ValvePipeline
