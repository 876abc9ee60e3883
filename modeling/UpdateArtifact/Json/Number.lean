import UpdateArtifact.Decimal.Shortest

/-!
# JSON numbers

Whole numbers that fit 64 bits are exact; every other number is a double.  A
double is written with its shortest digits, always with a point or an exponent,
so the two kinds never share a text.
-/

namespace UpdateArtifact

namespace Json

inductive Number where
  | whole (value : Int)
  | double (value : Binary64)
  deriving DecidableEq

namespace Number

def signText (negative : Bool) : List Char :=
  if negative then ['-'] else []

/-- Digits with a point after the digit at `place`, or leading zeros when all
digits are fractional. -/
def positional (digits : List Char) (place : Int) : List Char :=
  if place < 0 then
    "0.".toList ++ List.replicate (-place - 1).toNat '0' ++ digits
  else
    let whole := place.toNat + 1
    let fraction := digits.drop whole
    digits.take whole ++ List.replicate (whole - digits.length) '0' ++ ['.'] ++
      (if fraction = [] then ['0'] else fraction)

/-- One digit before the point, and the sign of the exponent always written. -/
def scientific (digits : List Char) (place : Int) : List Char :=
  digits.take 1 ++
    (if digits.length ≤ 1 then [] else '.' :: digits.drop 1) ++
    ['e', if place < 0 then '-' else '+'] ++ Decimal.numeral place.natAbs

/-- The text of a double: positional while the leading digit is at the places
-5 to 15, scientific outside. -/
def doubleText (value : Binary64) : List Char :=
  let decimal := Decimal.shortest value
  let digits := Decimal.numeral decimal.digits
  let place := decimal.exponent + (digits.length : Int) - 1
  signText value.negative ++
    (if -5 ≤ place ∧ place ≤ 15 then positional digits place else scientific digits place)

def text : Number → List Char
  | .whole value => signText (value < 0) ++ Decimal.numeral value.natAbs
  | .double value => doubleText value

end Number

end Json

end UpdateArtifact
