import UpdateArtifact.Decimal.Binary64

/-!
# Shortest decimals

The shortest decimal of a double is the one with the fewest digits among all
that round to it, and the nearest of those.  The search tries one digit, two
digits and so on up to seventeen, which always suffice, and looks at the two
neighbours of the exact value on each decimal grid.
-/

namespace UpdateArtifact

/-- The decimal `digits · 10 ^ exponent`. -/
structure Decimal where
  digits : Nat
  exponent : Int
  deriving DecidableEq

namespace Decimal

def numeral (value : Nat) : List Char :=
  Nat.toDigits 10 value

/-- Moves trailing zeros of the digits into the exponent. -/
def stripped : Nat → Decimal → Decimal
  | 0, decimal => decimal
  | fuel + 1, decimal =>
      if decimal.digits ≠ 0 ∧ decimal.digits % 10 = 0 then
        stripped fuel { digits := decimal.digits / 10, exponent := decimal.exponent + 1 }
      else decimal

/-- The place of the leading digit of a positive fraction. -/
def leadingPlace (numerator denominator : Nat) : Int :=
  if denominator ≤ numerator then (numeral (numerator / denominator)).length - 1
  else -((numeral ((denominator - 1) / numerator)).length : Int)

/-- The reals that round to a double, in quarters of its last binary place. -/
structure Interval where
  low : Nat
  value : Nat
  high : Nat
  /-- Whether the ends themselves round to the double. -/
  closed : Bool

def Interval.around (number : Binary64) : Interval :=
  let gap := if number.significand = 1 <<< 52 ∧ number.exponent ≠ -1074 then 1 else 2
  { low := 4 * number.significand - gap
    value := 4 * number.significand
    high := 4 * number.significand + 2
    closed := number.significand % 2 = 0 }

/-- Whether `candidate / denominator` lies in the interval scaled by `unit`. -/
def Interval.contains (interval : Interval) (unit candidate : Nat) : Bool :=
  if interval.closed then
    interval.low * unit ≤ candidate && candidate ≤ interval.high * unit
  else
    interval.low * unit < candidate && candidate < interval.high * unit

/-- The better neighbour of the exact value on the grid of multiples of
`10 ^ place`, if one of them rounds to the double. -/
def onGrid? (number : Binary64) (place : Int) : Option Decimal :=
  let interval := Interval.around number
  let (unit, whole) := Binary64.unscale 1 1 (2 - number.exponent)
  let (unit, step) :=
    if 0 ≤ place then (unit, whole * Nat.pow 10 place.toNat)
    else (unit * Nat.pow 10 (-place).toNat, whole)
  let exact := interval.value * unit
  let below := exact / step
  let lowerFits := interval.contains unit (below * step)
  let upperFits := interval.contains unit ((below + 1) * step)
  let down : Decimal := { digits := below, exponent := place }
  let up : Decimal := { digits := below + 1, exponent := place }
  if lowerFits && upperFits then
    let twice := 2 * (exact % step)
    if twice < step ∨ (twice = step ∧ below % 2 = 0) then some down else some up
  else if lowerFits then some down
  else if upperFits then some up
  else none

/-- The shortest decimal of the magnitude of a double. -/
def shortest (number : Binary64) : Decimal :=
  if number.significand = 0 then { digits := 0, exponent := 0 }
  else
    let (numerator, denominator) := number.magnitude
    let leading := leadingPlace numerator denominator
    let found := (List.range 17).findSome? fun (count : Nat) =>
      onGrid? number (leading - (count : Int))
    stripped 20 (found.getD { digits := 0, exponent := 0 })

end Decimal

end UpdateArtifact
