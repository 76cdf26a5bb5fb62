import ValvePipeline.Json.Typed
import ValvePipeline.Text.Blank

/-!
Break signals. A signal asks to unwind enclosing scopes: a number of them, all up to a labelled one,
or every one. Each boundary on the way decides whether the signal stops there.
-/

set_option autoImplicit false
set_option relaxedAutoImplicit false

namespace ValvePipeline

inductive Signal where
  /-- The current scope and the given number of enclosing ones. -/
  | level (count : Nat)
  /-- Every scope up to the one with this label, that one included. -/
  | label (name : String)
  /-- Every scope. -/
  | exit
  deriving DecidableEq, Repr, Inhabited

namespace Signal

/-- The label that stands for the outermost scope and so for an exit. -/
def topLabel : String := "#TOP"

/-- The signal that a label addresses. Blanks around it do not matter. -/
def toLabel (name : String) : Signal :=
  if Text.trim name = topLabel then .exit else .label (Text.trim name)

inductive Decision where
  /-- The signal ends here. -/
  | absorb
  /-- The boundary stops too and leaves this signal. -/
  | propagate (next : Signal)
  deriving DecidableEq, Repr

/-- The boundary rule, for a boundary around a scope with the given label. -/
def atBoundary (scope : Option String) : Signal → Decision
  | .exit => .propagate .exit
  | .level 0 => .absorb
  | .level (n + 1) => .propagate (.level n)
  | .label name => if scope = some name then .absorb else .propagate (.label name)

theorem atBoundary_eq_absorb_iff (scope : Option String) (signal : Signal) :
    signal.atBoundary scope = .absorb ↔
      signal = .level 0 ∨ ∃ name, signal = .label name ∧ scope = some name := by
  cases signal with
  | level count => cases count <;> simp [atBoundary]
  | label name =>
    unfold atBoundary
    split <;> simp_all
  | exit => simp [atBoundary]

theorem toLabel_eq_exit_iff (name : String) :
    toLabel name = .exit ↔ Text.trim name = topLabel := by
  unfold toLabel
  split <;> simp_all

def isExit : Signal → Bool
  | .exit => true
  | _ => false

def display : Signal → String
  | .level n => "break(" ++ toString n ++ ")"
  | .label name => "break(" ++ name ++ ")"
  | .exit => "exit"

def toJson : Signal → Json
  | .level n => .ofFields [("kind", .string "level"), ("target", .nat n)]
  | .label name => .ofFields [("kind", .string "label"), ("target", .string name)]
  | .exit => .ofFields [("kind", .string "exit")]

def tags : List String := ["level", "label", "exit"]

/-- Reads a signal that may be a part of a larger value; a label is taken as it is. -/
def read? (reading : Json.Reading) (value : Json) : Option Signal := do
  let union ← value.tagged? "kind" "target" tags reading
  match union.tag with
  | "level" => return .level (← (← union.content).nat64?)
  | "label" => return .label (← (← union.content).string?)
  | "exit" => if Json.isVoid union.content then return .exit else none
  | _ => none

def ofJson? (value : Json) : Option Signal :=
  read? .inPlace value

end Signal

end ValvePipeline
