import ValvePipeline.Binary64.Basic

/-!
Decimal numerals: their digits, and the binary number nearest to what a numeral says.
-/

set_option autoImplicit false
set_option relaxedAutoImplicit false

namespace ValvePipeline

/-- A decimal numeral: sign, digits as a whole number, and the power of ten they are scaled by. -/
structure Decimal where
  negative : Bool
  digits : Nat
  exponent : Int
  deriving DecidableEq, Repr

namespace Decimal

def digitValue (c : Char) : Nat :=
  c.toNat - '0'.toNat

def ofDigits (ds : List Char) : Nat :=
  ds.foldl (fun n d => 10 * n + digitValue d) 0

def readSign : List Char → Bool × List Char
  | '-' :: cs => (true, cs)
  | '+' :: cs => (false, cs)
  | cs => (false, cs)

def readInt? (cs : List Char) : Option Int :=
  match readSign cs with
  | (_, []) => none
  | (negative, ds) =>
    if ds.all Char.isDigit then
      some (if negative then -(ofDigits ds : Int) else ofDigits ds)
    else none

def readExponent? : List Char → Option Int
  | [] => some 0
  | c :: cs =>
    if c = 'e' || c = 'E' then readInt? cs else none

/-- Reads a numeral that fills the whole text: a sign, digits around at most one point with at
least one of them, and an exponent. Only the digits are needed. -/
def read? (cs : List Char) : Option Decimal :=
  let (negative, cs) := readSign cs
  let whole := cs.takeWhile Char.isDigit
  let rest := cs.dropWhile Char.isDigit
  let (fraction, rest) :=
    match rest with
    | '.' :: rest => (rest.takeWhile Char.isDigit, rest.dropWhile Char.isDigit)
    | rest => ([], rest)
  if whole.isEmpty && fraction.isEmpty then none
  else
    (readExponent? rest).map fun exponent =>
      ⟨negative, ofDigits (whole ++ fraction), exponent - fraction.length⟩

/-- The magnitude nearest to a scaled whole number, before the format's bound is applied. Scales
that would be too large or too small whatever the digits say are not multiplied out. -/
def magnitude (digits : Nat) (exponent : Int) : Nat :=
  if digits = 0 then 0
  else if 0 ≤ exponent then
    if exponent ≤ 310 then Binary64.nearest (digits * Nat.pow 10 exponent.toNat * Binary64.one) 1
    else Binary64.bound
  else
    let places := (-exponent).toNat
    if places ≤ Nat.log2 digits + 400 then
      Binary64.nearest (digits * Binary64.one) (Nat.pow 10 places)
    else 0

def toBinary64? (d : Decimal) : Option Binary64 :=
  let units := magnitude d.digits d.exponent
  if units < Binary64.bound then some ⟨d.negative, units⟩ else none

end Decimal

end ValvePipeline
