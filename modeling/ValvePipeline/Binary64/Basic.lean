/-!
Finite numbers of the 64-bit binary format. Every such number is a whole multiple of the smallest
positive one, so it is kept as a sign and a count of those units; order and equality are then those
of the integers, and rounding is one division of natural numbers.
-/

set_option autoImplicit false
set_option relaxedAutoImplicit false

namespace ValvePipeline

/-- A finite binary number: its sign, and its magnitude in units of 2 ^ -1074. -/
structure Binary64 where
  negative : Bool
  units : Nat
  deriving DecidableEq, Repr, Inhabited

namespace Binary64

def one : Nat := Nat.pow 2 1074

/-- The least magnitude that is too large for the format: 2 ^ 1024. -/
def bound : Nat := Nat.pow 2 2098

/-- The whole number nearest to a quotient; of two equally near ones, the even one. -/
def roundQuotient (num den : Nat) : Nat :=
  let whole := num / den
  let double := 2 * (num % den)
  if double < den || (double == den && whole % 2 == 0) then whole else whole + 1

/-- The power of two that separates neighbouring numbers of the format at this magnitude. -/
def gapExponent (units : Nat) : Nat :=
  Nat.log2 units - 52

/-- The magnitude of the format nearest to a quotient of units; a tie goes to the even one. -/
def nearest (num den : Nat) : Nat :=
  let shift := gapExponent (num / den)
  roundQuotient num (den * Nat.pow 2 shift) * Nat.pow 2 shift

def product (a b : Nat) : Nat :=
  nearest (a * b) one

def quotient (a b : Nat) : Nat :=
  nearest (a * one) b

def ofNat (n : Nat) : Nat :=
  nearest (n * one) 1

def ofInt (i : Int) : Binary64 :=
  ⟨decide (i < 0), ofNat i.natAbs⟩

def value (x : Binary64) : Int :=
  if x.negative then -(x.units : Int) else x.units

def sameValue (x y : Binary64) : Bool :=
  x.value == y.value

def isZero (x : Binary64) : Bool :=
  x.units == 0

def order (x y : Binary64) : Ordering :=
  compare x.value y.value

end Binary64

end ValvePipeline
