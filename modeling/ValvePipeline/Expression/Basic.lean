import ValvePipeline.Attributes
import ValvePipeline.Json.Printer

/-!
Expressions on attributes: a name alone, a negated name, or a comparison of a name with a literal.
A comparison with a name that is not set holds only when it asks for a difference.
-/

set_option autoImplicit false
set_option relaxedAutoImplicit false

namespace ValvePipeline

inductive Comparison where
  | eq | ne | lt | le | gt | ge
  deriving DecidableEq, Repr

namespace Comparison

def symbol : Comparison → String
  | .eq => "=="
  | .ne => "!="
  | .lt => "<"
  | .le => "<="
  | .gt => ">"
  | .ge => ">="

def inspect : Comparison → String
  | .eq => "Eq"
  | .ne => "Ne"
  | .lt => "Lt"
  | .le => "Le"
  | .gt => "Gt"
  | .ge => "Ge"

/-- The operator holds of operands in this order. -/
def holds : Comparison → Ordering → Bool
  | .eq, o => o == .eq
  | .ne, o => o != .eq
  | .lt, o => o == .lt
  | .le, o => o != .gt
  | .gt, o => o == .gt
  | .ge, o => o != .lt

end Comparison

/-- The order of two values: numbers by value, other values only when they are equal. -/
def Json.order? : Json → Json → Option Ordering
  | .number a, .number b => some (a.order b)
  | a, b => if a.same b then some .eq else none

inductive Test where
  /-- The name is set to a value that counts as true; or, negated, it is not. -/
  | truthy (key : String) (negated : Bool)
  /-- The value of the name compares so with the literal. -/
  | compare (key : String) (op : Comparison) (literal : Json)

namespace Test

/-- The test holds. Values without an order differ and are in no other relation. -/
def holds (attributes : Attributes) : Test → Bool
  | .truthy key negated => ((attributes.get? key).any Json.truthy) != negated
  | .compare key op literal =>
    match attributes.get? key with
    | none => op == .ne
    | some actual =>
      match actual.order? literal with
      | some o => op.holds o
      | none => op == .ne

def display : Test → String
  | .truthy key negated => (if negated then "!" else "") ++ key
  | .compare key op literal => key ++ " " ++ op.symbol ++ " " ++ literal.compact

def inspect : Test → String
  | .truthy key negated =>
    "Truthy \x7b key: " ++ Text.quoted key ++ ", negate: " ++ toString negated ++ " \x7d"
  | .compare key op literal =>
    "Compare \x7b key: " ++ Text.quoted key ++ ", op: " ++ op.inspect ++ ", value: " ++
      literal.inspect ++ " \x7d"

end Test

/-- A test together with the text it was read from. -/
structure Expression where
  source : String
  test : Test

namespace Expression

def holds (attributes : Attributes) (e : Expression) : Bool :=
  e.test.holds attributes

def display (e : Expression) : String :=
  e.test.display

def inspect (e : Expression) : String :=
  "ExpressionCondition \x7b source: " ++ Text.quoted e.source ++ ", expr: " ++ e.test.inspect ++
    " \x7d"

end Expression

end ValvePipeline
