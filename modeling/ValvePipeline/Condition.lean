import ValvePipeline.Expression.Basic

/-!
Conditions on attributes. A named condition leaves a note each time it is evaluated, so that the
notes of an evaluation tell which named parts were looked at, in which order, and what they said.
-/

set_option autoImplicit false
set_option relaxedAutoImplicit false

namespace ValvePipeline

inductive Condition where
  | constant (answer : Bool)
  /-- The name is set, be it to null. -/
  | isSet (key : String)
  | equals (key : String) (value : Json)
  /-- The name is set to a value that counts as true. -/
  | isTrue (key : String)
  | expression (e : Expression)
  | not (c : Condition)
  /-- Every condition holds; they are tried in order up to the first that does not. -/
  | all (cs : List Condition)
  /-- Some condition holds; they are tried in order up to the first that does. -/
  | any (cs : List Condition)
  /-- The condition holds, and a note is left under this name. -/
  | named (name : String) (c : Condition)
  /-- A test of one's own, known by a name. -/
  | custom (name : String) (test : Attributes → Bool)

namespace Condition

def note (name : String) (answer : Bool) : String :=
  "?" ++ name ++ "=" ++ toString answer

mutual

def eval (attributes : Attributes) : Condition → Bool × List String
  | .constant answer => (answer, [])
  | .isSet key => (attributes.has key, [])
  | .equals key value => ((attributes.get? key).any (·.same value), [])
  | .isTrue key => ((attributes.get? key).any Json.truthy, [])
  | .expression e => (e.holds attributes, [])
  | .not c =>
    let (answer, notes) := eval attributes c
    (!answer, notes)
  | .all cs => evalAll attributes cs
  | .any cs => evalAny attributes cs
  | .named name c =>
    let (answer, notes) := eval attributes c
    (answer, notes ++ [note name answer])
  | .custom _ test => (test attributes, [])

def evalAll (attributes : Attributes) : List Condition → Bool × List String
  | [] => (true, [])
  | c :: cs =>
    match eval attributes c with
    | (false, notes) => (false, notes)
    | (true, notes) =>
      let (answer, others) := evalAll attributes cs
      (answer, notes ++ others)

def evalAny (attributes : Attributes) : List Condition → Bool × List String
  | [] => (false, [])
  | c :: cs =>
    match eval attributes c with
    | (true, notes) => (true, notes)
    | (false, notes) =>
      let (answer, others) := evalAny attributes cs
      (answer, notes ++ others)

end

def holds (attributes : Attributes) (c : Condition) : Bool :=
  (c.eval attributes).1

mutual

/-- The condition with its parts named; a named or custom one shows only its name. -/
def inspect : Condition → String
  | .constant answer => "Constant(" ++ toString answer ++ ")"
  | .isSet key => "Exists(" ++ Text.quoted key ++ ")"
  | .equals key value => "Equals(" ++ Text.quoted key ++ ", " ++ value.inspect ++ ")"
  | .isTrue key => "IsTrue(" ++ Text.quoted key ++ ")"
  | .expression e => e.inspect
  | .not c => "Not(" ++ inspect c ++ ")"
  | .all cs => "All([" ++ ", ".intercalate (inspectEach cs) ++ "])"
  | .any cs => "Any([" ++ ", ".intercalate (inspectEach cs) ++ "])"
  | .named name _ => name
  | .custom name _ => name

def inspectEach : List Condition → List String
  | [] => []
  | c :: cs => inspect c :: inspectEach cs

end

end Condition

end ValvePipeline
