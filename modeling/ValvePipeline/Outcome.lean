import ValvePipeline.Signal

/-!
How walks, boundaries and whole runs end.
-/

set_option autoImplicit false
set_option relaxedAutoImplicit false

namespace ValvePipeline

inductive WalkEnd where
  | completed
  | unwound
  deriving DecidableEq, Repr

namespace WalkEnd

def name : WalkEnd → String
  | .completed => "completed"
  | .unwound => "unwound"

def toJson (e : WalkEnd) : Json :=
  .string e.name

def ofJson? (value : Json) : Option WalkEnd := do
  match ← value.name? .inPlace with
  | "completed" => return .completed
  | "unwound" => return .unwound
  | _ => none

end WalkEnd

/-- What became of the pending signal at a boundary. -/
inductive Settlement where
  | completed
  | absorbed
  /-- One is still pending, so the boundary's valve must stop. -/
  | propagated
  deriving DecidableEq, Repr

namespace Settlement

def goesOn : Settlement → Bool
  | .propagated => false
  | _ => true

def name : Settlement → String
  | .completed => "completed"
  | .absorbed => "absorbed"
  | .propagated => "propagated"

def toJson (s : Settlement) : Json :=
  .string s.name

def ofJson? (value : Json) : Option Settlement := do
  match ← value.name? .inPlace with
  | "completed" => return .completed
  | "absorbed" => return .absorbed
  | "propagated" => return .propagated
  | _ => none

end Settlement

inductive Outcome where
  | completed
  /-- No boundary absorbed this signal. -/
  | unwound (signal : Signal)
  deriving DecidableEq, Repr

namespace Outcome

def isCompleted : Outcome → Bool
  | .completed => true
  | .unwound _ => false

def signal? : Outcome → Option Signal
  | .completed => none
  | .unwound signal => some signal

def display : Outcome → String
  | .completed => "completed"
  | .unwound signal => "unwound by " ++ signal.display

def toJson : Outcome → Json
  | .completed => .ofFields [("status", .string "completed")]
  | .unwound signal => .ofFields [("status", .string "unwound"), ("signal", signal.toJson)]

def tags : List String := ["completed", "unwound"]

def ofJson? (value : Json) : Option Outcome := do
  let union ← value.tagged? "status" "signal" tags .inPlace
  match union.tag with
  | "completed" => if Json.isVoid union.content then return .completed else none
  | "unwound" => return .unwound (← Signal.read? union.reading (← union.content))
  | _ => none

end Outcome

end ValvePipeline
