import ValvePipeline.Binary64.Basic
import ValvePipeline.Table

/-!
Dynamic values: what attributes hold and what events carry. Whole numbers and binary numbers are
kept apart, also where their values agree.
-/

set_option autoImplicit false
set_option relaxedAutoImplicit false

namespace ValvePipeline

/-- A number: a whole one of 64 bits, signed or unsigned, or a finite binary one. -/
inductive Number where
  | int (value : Int)
  | float (value : Binary64)
  deriving DecidableEq, Repr

namespace Number

def same : Number → Number → Bool
  | .int a, .int b => a == b
  | .float x, .float y => x.sameValue y
  | _, _ => false

/-- The number as a binary one; a whole number may lose digits. -/
def toBinary64 : Number → Binary64
  | .int i => .ofInt i
  | .float x => x

def order (a b : Number) : Ordering :=
  a.toBinary64.order b.toBinary64

end Number

/-- A value: the fields of an object are in ascending order of their names. -/
inductive Json where
  | null
  | bool (value : Bool)
  | number (value : Number)
  | string (value : String)
  | array (items : List Json)
  | object (fields : List (String × Json))
  deriving Inhabited

namespace Json

mutual

def same : Json → Json → Bool
  | .null, .null => true
  | .bool a, .bool b => a == b
  | .number a, .number b => a.same b
  | .string a, .string b => a == b
  | .array as, .array bs => sameItems as bs
  | .object as, .object bs => sameFields as bs
  | _, _ => false

def sameItems : List Json → List Json → Bool
  | [], [] => true
  | a :: as, b :: bs => same a b && sameItems as bs
  | _, _ => false

def sameFields : List (String × Json) → List (String × Json) → Bool
  | [], [] => true
  | (k, a) :: as, (l, b) :: bs => k == l && same a b && sameFields as bs
  | _, _ => false

end

def int (i : Int) : Json :=
  .number (.int i)

def nat (n : Nat) : Json :=
  int n

def ofFields (fields : List (String × Json)) : Json :=
  .object (Table.ofPairs fields)

def texts (items : List String) : Json :=
  .array (items.map .string)

def option : Option Json → Json
  | none => .array []
  | some value => .array [value]

def string? : Json → Option String
  | .string s => some s
  | _ => none

def bool? : Json → Option Bool
  | .bool b => some b
  | _ => none

def int64? : Json → Option Int
  | .number (.int i) => if -Nat.pow 2 63 ≤ i ∧ i < Nat.pow 2 63 then some i else none
  | _ => none

def nat64? : Json → Option Nat
  | .number (.int i) => if 0 ≤ i ∧ i < Nat.pow 2 64 then some i.toNat else none
  | _ => none

def items? : Json → Option (List Json)
  | .array items => some items
  | _ => none

def fields? : Json → Option (List (String × Json))
  | .object fields => some fields
  | _ => none

def field? (value : Json) (name : String) : Option Json :=
  value.fields?.bind (Table.get? · name)

/-- A value counts as true unless it is null, false, a zero, or empty. -/
def truthy : Json → Bool
  | .null => false
  | .bool b => b
  | .number n => !n.toBinary64.isZero
  | .string s => s != ""
  | .array items => !items.isEmpty
  | .object fields => !fields.isEmpty

end Json

end ValvePipeline
