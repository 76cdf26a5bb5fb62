import ValvePipeline.Binary64.Basic

/-!
The shortest decimal that reads back as a given binary number. The decimals that read back fill an
interval around the number; on the coarsest power of ten that has a multiple inside, the multiple
nearest to the number is chosen.
-/

set_option autoImplicit false
set_option relaxedAutoImplicit false

namespace ValvePipeline.Binary64

/-- The reals that round to one magnitude, in quarters of a unit. -/
structure Interval where
  low : Nat
  high : Nat
  closed : Bool
  deriving DecidableEq, Repr

/-- The interval of a magnitude. Below a power of two the neighbour is half as far; the ends belong
to it when the significand is even. -/
def interval (units : Nat) : Interval :=
  let shift := gapExponent units
  let significand := units / Nat.pow 2 shift
  let below :=
    if significand == Nat.pow 2 52 && shift != 0 then Nat.pow 2 shift else 2 * Nat.pow 2 shift
  { low := 4 * units - below
    high := 4 * units + 2 * Nat.pow 2 shift
    closed := significand % 2 == 0 }

def Interval.contains (i : Interval) (num den : Nat) : Bool :=
  if i.closed then i.low * den ≤ num && num ≤ i.high * den
  else i.low * den < num && num < i.high * den

def tenPower (exponent : Int) : Nat × Nat :=
  if 0 ≤ exponent then (4 * one * Nat.pow 10 exponent.toNat, 1)
  else (4 * one, Nat.pow 10 (-exponent).toNat)

/-- The multiple of a power of ten that lies in the interval of a magnitude, the nearer one of two;
of two equally near ones the even one. -/
def multiple? (units : Nat) (exponent : Int) : Option Nat :=
  let (num, den) := tenPower exponent
  let i := interval units
  let below := 4 * units * den / num
  let above := below + 1
  let fits (n : Nat) : Bool := i.contains (n * num) den
  if fits below then
    if fits above then some (roundQuotient (4 * units * den) num) else some below
  else if fits above then some above
  else none

def search (units : Nat) : Nat → Int → Nat × Int
  | 0, exponent => (0, exponent)
  | steps + 1, exponent =>
    match multiple? units exponent with
    | some digits => (digits, exponent)
    | none => search units steps (exponent - 1)

def startExponent (units : Nat) : Int :=
  ((Nat.log2 units : Int) - 1074) * 30103 / 100000 + 2

/-- The digits of the shortest decimal that reads back, and the power of ten of the last one.
Seventeen digits always suffice. -/
def shortest (units : Nat) : Nat × Int :=
  search units 24 (startExponent units)

end ValvePipeline.Binary64
