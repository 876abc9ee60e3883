/-!
# Finite binary64 numbers

A double is held as a sign, a significand and a power of two.  Products and
quotients are formed exactly over the natural numbers and rounded once, to the
nearest double and to the even one on a tie, which is what the IEEE 754
operations do.
-/

namespace UpdateArtifact

/-- The finite double `± significand · 2 ^ exponent`.  The significand has 53
bits unless the exponent is the least one, -1074. -/
structure Binary64 where
  negative : Bool
  significand : Nat
  exponent : Int
  deriving DecidableEq

namespace Binary64

def zero (negative : Bool) : Binary64 :=
  { negative, significand := 0, exponent := -1074 }

/-- The natural number nearest to a fraction; a tie goes to the even one. -/
def nearest (numerator denominator : Nat) : Nat :=
  let quotient := numerator / denominator
  let twice := 2 * (numerator % denominator)
  if twice < denominator ∨ (twice = denominator ∧ quotient % 2 = 0) then quotient
  else quotient + 1

/-- A fraction divided by a power of two, as numerator and denominator. -/
def unscale (numerator denominator : Nat) (exponent : Int) : Nat × Nat :=
  if 0 ≤ exponent then (numerator, denominator <<< exponent.toNat)
  else (numerator <<< (-exponent).toNat, denominator)

/-- The power of two at which a positive fraction has a 53-bit quotient, or
the least one. -/
def scale (numerator denominator : Nat) : Int :=
  let guess : Int := (numerator.log2 : Int) - (denominator.log2 : Int) - 52
  let (above, below) := unscale numerator denominator guess
  max (-1074) (if above < below <<< 52 then guess - 1 else guess)

/-- The double nearest to a fraction, if it is not beyond the largest one. -/
def ofFraction (negative : Bool) (numerator denominator : Nat) : Option Binary64 :=
  if numerator = 0 then some (zero negative)
  else
    let exponent := scale numerator denominator
    let (above, below) := unscale numerator denominator exponent
    let rounded := nearest above below
    let (significand, exponent) :=
      if rounded = 1 <<< 53 then (1 <<< 52, exponent + 1) else (rounded, exponent)
    if exponent ≤ 971 then some { negative, significand, exponent } else none

def magnitude (number : Binary64) : Nat × Nat :=
  unscale number.significand 1 (-number.exponent)

/-- The rounded product; the sign is the first factor's. -/
def mul (left right : Binary64) : Option Binary64 :=
  let (n₁, d₁) := left.magnitude
  let (n₂, d₂) := right.magnitude
  ofFraction left.negative (n₁ * n₂) (d₁ * d₂)

/-- The rounded quotient by a positive number; the sign is the dividend's. -/
def div (left right : Binary64) : Option Binary64 :=
  let (n₁, d₁) := left.magnitude
  let (n₂, d₂) := right.magnitude
  ofFraction left.negative (n₁ * d₂) (d₁ * n₂)

def powerOfTen (exponent : Nat) : Binary64 :=
  (ofFraction false (Nat.pow 10 exponent) 1).getD (zero false)

/-- Divides by `10 ^ 308` the given number of times, rounding each time. -/
def divideRepeatedly : Nat → Binary64 → Option Binary64
  | 0, number => some number
  | count + 1, number => do
      let quotient ← number.div (powerOfTen 308)
      divideRepeatedly count quotient

/-- Multiplies by a power of ten, with one rounded operation for exponents up
to 308 and rounded divisions by `10 ^ 308` before it otherwise; three of them
take every number up to `2 ^ 64` to zero.  There is no result when it would
exceed the largest double. -/
def scaleByTen (number : Binary64) (exponent : Int) : Option Binary64 :=
  if 0 ≤ exponent then
    if exponent ≤ 308 then number.mul (powerOfTen exponent.toNat)
    else if number.significand = 0 then some number
    else none
  else do
    let places := (-exponent).toNat
    let count := (places - 1) / 308
    let quotient ← divideRepeatedly (min count 3) number
    quotient.div (powerOfTen (places - 308 * count))

/-- The double nearest to `digits`, moved by `exponent` decimal places. -/
def ofDecimal (negative : Bool) (digits : Nat) (exponent : Int) : Option Binary64 :=
  match ofFraction negative digits 1 with
  | none => none
  | some number => number.scaleByTen exponent

end Binary64

end UpdateArtifact
