import ValvePipeline.Json.Basic

/-!
Shapes of typed values: records, tagged unions and plain names. A record may be written as an object
or as a list of its parts, a union as an object or as a pair of tag and content. The fields of an
object come in the order of their names; where the content comes before the tag, it is set aside
until the tag has said what it is, and is then read less strictly.
-/

set_option autoImplicit false
set_option relaxedAutoImplicit false

namespace ValvePipeline.Json

/-- The parts of a record: by name in an object, where other fields do not matter, or by place in an
array, which may leave out the last parts down to the given count. -/
def parts? (names : List String) (least : Nat) : Json → Option (List (Option Json))
  | .object fields => some (names.map (Table.get? fields))
  | .array items =>
    if least ≤ items.length ∧ items.length ≤ names.length then
      some ((List.range names.length).map (items[·]?))
    else none
  | _ => none

inductive Reading where
  /-- Where it stands. -/
  | inPlace
  /-- After it was set aside for its tag. -/
  | setAside
  deriving DecidableEq, Repr

/-- What may go with a plain name: null, and in a part that was set aside also the empty object. -/
def Reading.isNothing : Reading → Json → Bool
  | _, .null => true
  | .setAside, .object [] => true
  | _, _ => false

/-- A plain name, alone or as the only field of an object that holds nothing. -/
def name? (reading : Reading) : Json → Option String
  | .string name => some name
  | .object [(name, value)] => if reading.isNothing value then some name else none
  | _ => none

/-- The tag at the head of a pair: a string, and in a part that was set aside also the place of the
tag among all the tags, counted from zero. -/
def headTag? (tags : List String) (value : Json) : Reading → Option String
  | .inPlace => value.string?
  | .setAside => value.string? <|> value.nat64?.bind (tags[·]?)

/-- A union taken apart: its tag, its content if it has one, and how the content is read. -/
structure Tagged where
  tag : String
  content : Option Json
  reading : Reading

def tagged? (tagField contentField : String) (tags : List String) (reading : Reading) :
    Json → Option Tagged
  | .object fields => do
    return { tag := ← (← Table.get? fields tagField).name? reading
             content := Table.get? fields contentField
             reading := if contentField < tagField then .setAside else reading }
  | .array [head, content] => do
    return { tag := ← head.headTag? tags reading, content := some content, reading }
  | _ => none

def isVoid : Option Json → Bool
  | none => true
  | some .null => true
  | some _ => false

def optional? {α : Type} (read : Json → Option α) : Option Json → Option (Option α)
  | none => some none
  | some .null => some none
  | some value => (read value).map some

def defaulted? {α : Type} (read : Json → Option α) (value : α) : Option Json → Option α
  | none => some value
  | some given => read given

end ValvePipeline.Json
