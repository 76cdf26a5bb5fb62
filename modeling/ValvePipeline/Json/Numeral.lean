import ValvePipeline.Binary64.Decimal
import ValvePipeline.Json.Basic

/-!
Numerals of the compact form. A numeral without point and power that fits 64 bits is a whole number.
Any other is a binary one: its digits are kept as long as they fit an unsigned 64-bit number, and
the kept number is multiplied or divided by a power of ten, rounding at each step.
-/

set_option autoImplicit false
set_option relaxedAutoImplicit false

namespace ValvePipeline.Json

/-- The parts of a numeral: sign, digits before and after the point, and the power of ten. -/
structure Numeral where
  negative : Bool
  whole : List Char
  fraction : List Char
  exponent : Int
  /-- The numeral has neither a point nor a power. -/
  plain : Bool
  deriving DecidableEq, Repr

namespace Numeral

/-- Continues a number with digits as long as it stays below 2 ^ 64; also counts the digits used. -/
def keep (n : Nat) : List Char → Nat × Nat
  | [] => (n, 0)
  | d :: ds =>
    let longer := 10 * n + Decimal.digitValue d
    if longer < Nat.pow 2 64 then
      let (kept, used) := keep longer ds
      (kept, used + 1)
    else (n, 0)

/-- The greatest power of ten that one step multiplies or divides by. -/
def stepLimit : Nat := 308

def divide (units : Nat) (places : Nat) : Nat :=
  if places ≤ stepLimit then Binary64.quotient units (Binary64.ofNat (Nat.pow 10 places))
  else if units = 0 then 0
  else divide (Binary64.quotient units (Binary64.ofNat (Nat.pow 10 stepLimit))) (places - stepLimit)
termination_by places
decreasing_by unfold stepLimit at *; omega

def scaled? (kept : Nat) (exponent : Int) : Option Nat :=
  let units := Binary64.ofNat kept
  if exponent < 0 then some (divide units exponent.natAbs)
  else if units = 0 then some 0
  else if exponent.toNat ≤ stepLimit then
    let product := Binary64.product units (Binary64.ofNat (Nat.pow 10 exponent.toNat))
    if product < Binary64.bound then some product else none
  else none

def toBinary64? (n : Numeral) : Option Binary64 :=
  let (whole, usedWhole) := keep 0 n.whole
  let (kept, usedFraction) := keep whole n.fraction
  let exponent := n.exponent + (n.whole.length - usedWhole : Nat) - usedFraction
  (scaled? kept exponent).map fun units => ⟨n.negative, units⟩

/-- The number that the numeral says. A minus zero is a binary number. -/
def toNumber? (n : Numeral) : Option Number :=
  let value := Decimal.ofDigits n.whole
  if n.plain && !n.negative && value < Nat.pow 2 64 then some (.int value)
  else if n.plain && n.negative && value != 0 && value ≤ Nat.pow 2 63 then some (.int (-(value : Int)))
  else n.toBinary64?.map .float

/-- Reads the digits before the point: a lone zero, or a run that starts with no zero. -/
def readWhole? (cs : List Char) : Option (List Char × List Char) :=
  match cs.takeWhile Char.isDigit, cs.dropWhile Char.isDigit with
  | [], _ => none
  | ['0'], rest => some (['0'], rest)
  | '0' :: _, _ => none
  | whole, rest => some (whole, rest)

def readFraction? : List Char → Option (Option (List Char) × List Char)
  | '.' :: cs =>
    match cs.takeWhile Char.isDigit with
    | [] => none
    | fraction => some (some fraction, cs.dropWhile Char.isDigit)
  | cs => some (none, cs)

def readPower? : List Char → Option (Option Int × List Char)
  | [] => some (none, [])
  | c :: cs =>
    if c = 'e' || c = 'E' then
      let (negative, cs) := Decimal.readSign cs
      match cs.takeWhile Char.isDigit with
      | [] => none
      | digits =>
        let power : Int := Decimal.ofDigits digits
        some (some (if negative then -power else power), cs.dropWhile Char.isDigit)
    else some (none, c :: cs)

def read? (cs : List Char) : Option (Numeral × List Char) := do
  let (negative, cs) :=
    match cs with
    | '-' :: cs => (true, cs)
    | cs => (false, cs)
  let (whole, cs) ← readWhole? cs
  let (fraction, cs) ← readFraction? cs
  let (power, cs) ← readPower? cs
  let numeral : Numeral :=
    { negative, whole, fraction := fraction.getD [], exponent := power.getD 0
      plain := fraction.isNone && power.isNone }
  return (numeral, cs)

end Numeral

end ValvePipeline.Json
