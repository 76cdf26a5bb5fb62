import ValvePipeline.Json.Basic

/-!
The attribute map of one run. It is flat and shared: whatever sets a name last has the last word.
-/

set_option autoImplicit false
set_option relaxedAutoImplicit false

namespace ValvePipeline

structure Attributes where
  entries : Table Json := []
  deriving Inhabited

namespace Attributes

def empty : Attributes := {}

def get? (a : Attributes) (key : String) : Option Json :=
  a.entries.get? key

def string? (a : Attributes) (key : String) : Option String :=
  (a.get? key).bind Json.string?

/-- The value of a name, if it is a whole number in the signed 64-bit range. -/
def int? (a : Attributes) (key : String) : Option Int :=
  (a.get? key).bind Json.int64?

def bool? (a : Attributes) (key : String) : Option Bool :=
  (a.get? key).bind Json.bool?

def has (a : Attributes) (key : String) : Bool :=
  (a.get? key).isSome

def set (a : Attributes) (key : String) (value : Json) : Attributes :=
  ⟨a.entries.set key value⟩

def erase (a : Attributes) (key : String) : Attributes :=
  ⟨a.entries.erase key⟩

/-- Sets names in order, so that the last value of a name stays. -/
def setAll (a : Attributes) (pairs : List (String × Json)) : Attributes :=
  pairs.foldl (fun a (key, value) => a.set key value) a

def keys (a : Attributes) : List String :=
  a.entries.keys

def size (a : Attributes) : Nat :=
  a.entries.length

def same (a b : Attributes) : Bool :=
  Json.sameFields a.entries b.entries

def toJson (a : Attributes) : Json :=
  .object a.entries

def ofJson? : Json → Option Attributes
  | .object fields => some ⟨fields⟩
  | _ => none

theorem get?_set (a : Attributes) (key other : String) (value : Json) :
    (a.set key value).get? other = if other = key then some value else a.get? other :=
  Table.get?_set a.entries key other value

theorem get?_erase (a : Attributes) (key other : String) :
    (a.erase key).get? other = if other = key then none else a.get? other :=
  Table.get?_erase a.entries key other

end Attributes

end ValvePipeline
