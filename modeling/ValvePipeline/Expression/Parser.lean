import ValvePipeline.Binary64.Decimal
import ValvePipeline.Expression.Basic
import ValvePipeline.Text.Blank
import ValvePipeline.Validation

/-!
Reading expressions. The bare forms are tried first; a comparison takes the first operator after
which a literal can stand. A literal stays on one line.
-/

set_option autoImplicit false
set_option relaxedAutoImplicit false

namespace ValvePipeline

inductive Misreading where
  /-- It has none of the three forms. -/
  | form
  /-- What stands after the operator is no literal. -/
  | literal
  deriving DecidableEq, Repr

def Misreading.reason : Misreading → String
  | .form => "expected `name`, `!name` or `name <op> literal`"
  | .literal => "unrecognised literal"

namespace Expression

def startsName (c : Char) : Bool :=
  c.isAlpha || c == '_'

def continuesName (c : Char) : Bool :=
  c.isAlphanum || c == '_' || c == '.' || c == '-'

def readName? : List Char → Option (List Char × List Char)
  | [] => none
  | c :: cs =>
    if startsName c then some (c :: cs.takeWhile continuesName, cs.dropWhile continuesName)
    else none

/-- Reads a name, or a negated one, with nothing but blanks around it. -/
def readBare? (cs : List Char) : Option Test :=
  let cs := Text.trimFront cs
  let (negated, cs) :=
    match cs with
    | '!' :: rest => (true, rest)
    | cs => (false, cs)
  match readName? (Text.trimFront cs) with
  | some (name, rest) =>
    if rest.all Text.isBlank then some (.truthy (String.ofList name) negated) else none
  | none => none

def operators : List Comparison := [.eq, .ne, .le, .ge, .lt, .gt]

def afterSymbol? : List Char → List Char → Option (List Char)
  | [], cs => some cs
  | _ :: _, [] => none
  | s :: ss, c :: cs => if s = c then afterSymbol? ss cs else none

/-- The place of a literal, without the blanks around it. It holds no line break. If there are only
blanks, one that is no line break must be among them, and the literal is empty. -/
def literalSpan? (cs : List Char) : Option (List Char) :=
  match Text.trimmed cs with
  | [] => if cs.any (· != '\n') then some [] else none
  | span => if span.contains '\n' then none else some span

def splitComparison? (cs : List Char) : Option (List Char × Comparison × List Char) := do
  let (name, rest) ← readName? (Text.trimFront cs)
  let rest := Text.trimFront rest
  operators.findSome? fun op => do
    let span ← literalSpan? (← afterSymbol? op.symbol.toList rest)
    return (name, op, span)

def unquote? (quote : Char) (cs : List Char) : Option (List Char) :=
  match cs with
  | [] => none
  | c :: rest => if c = quote && rest.getLast? = some quote then some rest.dropLast else none

def readInteger? (cs : List Char) : Option Int :=
  (Decimal.readInt? cs).filter fun i => -Nat.pow 2 63 ≤ i && i < Nat.pow 2 63

/-- Reads a literal that fills its place: a name of a value, a quoted text, a whole number, or a
decimal numeral whose value is finite. -/
def readLiteral? (cs : List Char) : Option Json :=
  if cs = "true".toList then some (.bool true)
  else if cs = "false".toList then some (.bool false)
  else if cs = "null".toList then some .null
  else
    match (unquote? '"' cs).or (unquote? '\x27' cs) with
    | some inner => some (.string (String.ofList inner))
    | none =>
      match readInteger? cs with
      | some i => some (.int i)
      | none => ((Decimal.read? cs).bind Decimal.toBinary64?).map fun x => .number (.float x)

def readTest (cs : List Char) : Except Misreading Test :=
  match readBare? cs with
  | some test => .ok test
  | none =>
    match splitComparison? cs with
    | none => .error .form
    | some (name, op, span) =>
      match readLiteral? span with
      | none => .error .literal
      | some literal => .ok (.compare (String.ofList name) op literal)

/-- Reads an expression from a text; its source is the text without the blanks around it. -/
def parse (text : String) : Except ValidationError Expression :=
  match readTest text.toList with
  | .ok test => .ok { source := Text.trim text, test }
  | .error misreading => .error (.badExpression text misreading.reason)

end Expression

end ValvePipeline
