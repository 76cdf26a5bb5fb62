import ValvePipeline.Binary64.Shortest

/-!
Writing a binary number in decimal. A layout says which numbers are written with all their places
and which with a power of ten.
-/

set_option autoImplicit false
set_option relaxedAutoImplicit false

namespace ValvePipeline.Binary64

/-- The powers of ten of a leading digit, least and greatest, that are written with all places. -/
structure Layout where
  least : Int
  greatest : Int
  deriving DecidableEq, Repr

def digitsOf (n : Nat) : List Char :=
  Nat.toDigits 10 n

def scientific (digits : List Char) (exponent : Int) : List Char :=
  let fraction := digits.drop 1
  let sign := if exponent < 0 then '-' else '+'
  digits.take 1 ++ (if fraction.isEmpty then [] else '.' :: fraction) ++
    ['e', sign] ++ digitsOf exponent.natAbs

/-- All places of a number whose leading digit stands for the given power of ten; at least one place
follows the point. -/
def positional (digits : List Char) (exponent : Int) : List Char :=
  if exponent < 0 then
    '0' :: '.' :: (List.replicate (-exponent - 1).toNat '0' ++ digits)
  else
    let places := exponent.toNat + 1
    let whole := digits.take places
    let fraction := digits.drop places
    whole ++ List.replicate (places - digits.length) '0' ++
      '.' :: (if fraction.isEmpty then ['0'] else fraction)

def printMagnitude (layout : Layout) (units : Nat) : List Char :=
  if units = 0 then ['0', '.', '0']
  else
    let (significand, last) := shortest units
    let digits := digitsOf significand
    let leading := last + digits.length - 1
    if layout.least ≤ leading && leading ≤ layout.greatest then positional digits leading
    else scientific digits leading

def print (layout : Layout) (x : Binary64) : List Char :=
  if x.negative then '-' :: printMagnitude layout x.units else printMagnitude layout x.units

end ValvePipeline.Binary64
