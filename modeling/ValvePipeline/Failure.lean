import ValvePipeline.Json.Basic

/-!
Failures at run time: what a valve raises, what a script raises before it is known as a valve's
failure, and what comes out of a whole run.
-/

set_option autoImplicit false
set_option relaxedAutoImplicit false

namespace ValvePipeline

/-- Why something went wrong: a text, and the texts of what lies behind it, nearest first. -/
structure Cause where
  message : String
  behind : List String := []
  deriving DecidableEq, Repr

inductive ValveFailure where
  /-- A loop came to its bound. -/
  | tooManyLoops (bound : Int)
  | failed (valve : String) (cause : Cause)
  deriving DecidableEq, Repr

namespace ValveFailure

def kind : ValveFailure → String
  | .tooManyLoops _ => "too_many_loops"
  | .failed _ _ => "failed"

def message : ValveFailure → String
  | .tooManyLoops bound => "Too many loops: exceeds the maximum count: " ++ toString bound
  | .failed valve cause => "valve '" ++ valve ++ "' failed: " ++ cause.message

def behind : ValveFailure → List String
  | .tooManyLoops _ => []
  | .failed _ cause => cause.message :: cause.behind

def toJson (e : ValveFailure) : Json :=
  .ofFields <|
    [("kind", .string e.kind), ("message", .string e.message)] ++
      match e with
      | .tooManyLoops bound => [("max_loop_count", .int bound)]
      | .failed valve cause => [("valve", .string valve), ("cause", .string cause.message)]

end ValveFailure

inductive Raised where
  /-- A failure that already has an origin. -/
  | valve (failure : ValveFailure)
  /-- A cause that the script's own valve will answer for. -/
  | plain (cause : Cause)
  deriving DecidableEq, Repr

namespace Raised

/-- The failure that leaves a valve whose script raised this: an origin is kept, a plain cause gets
the valve's name. -/
def underName (valve : String) : Raised → ValveFailure
  | .valve failure => failure
  | .plain cause => .failed valve cause

def toJson : Raised → Json
  | .valve failure => failure.toJson
  | .plain cause => .string cause.message

end Raised

/-- What comes out of a whole run that did not end well. -/
inductive RunFailure where
  | uncaught (pipeline : String) (failure : ValveFailure)
  | alreadyInvoked (invocation : String)
  deriving DecidableEq, Repr

namespace RunFailure

def message : RunFailure → String
  | .uncaught pipeline failure =>
    "Failed to invoke pipeline '" ++ pipeline ++ "': " ++ failure.message
  | .alreadyInvoked invocation => "Invocation " ++ invocation ++ " has already been invoked"

def valveFailure? : RunFailure → Option ValveFailure
  | .uncaught _ failure => some failure
  | .alreadyInvoked _ => none

def chain : RunFailure → List String
  | .uncaught _ failure => failure.message :: failure.behind
  | .alreadyInvoked _ => []

def kind : RunFailure → String
  | .uncaught _ _ => "invocation"
  | .alreadyInvoked _ => "already_invoked"

def toJson (e : RunFailure) : Json :=
  .ofFields
    [("error", .string e.kind), ("message", .string e.message), ("chain", .texts e.chain),
      ("valve_error", .option (e.valveFailure?.map ValveFailure.toJson))]

end RunFailure

end ValvePipeline
