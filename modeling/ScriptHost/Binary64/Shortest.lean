import ScriptHost.Binary64

/-!
# Shortest decimal digits

Every positive finite number is the only number of its format in an interval around
it: the decimals between the midpoints to its neighbours round to it, and the
midpoints themselves do so if the significand is even. The shortest digits of a
number are the fewest decimal digits of a point of that interval; among points with
equally few digits the one nearest to the number is taken.
-/

namespace ScriptHost
namespace Binary64

/-- Decimal digits and the power of ten of their last place. -/
structure Decimal where
  digits : Nat
  exponent : Int
deriving DecidableEq, Repr

namespace Shortest

/-- A positive number in units of a quarter of its last place, with the two ends of
the interval that rounds to it. The value of a unit is `2 ^ exponent`. -/
structure Interval where
  low : Nat
  value : Nat
  high : Nat
  exponent : Int
  closed : Bool

/-- The interval of a significand and its exponent. Below a power of two the numbers
lie twice as close. -/
def intervalOf
    (significand : Nat)
    (exponent : Int) : Interval where
  low :=
    if significand = leadingBit ∧ leastExponent < exponent then 4 * significand - 1
    else 4 * significand - 2
  value := 4 * significand
  high := 4 * significand + 2
  exponent := exponent - 2
  closed := significand % 2 = 0

/-- A decimal times a common denominator of decimals and interval points. -/
def scaleDecimal
    (interval : Interval)
    (decimal : Decimal) : Nat :=
  decimal.digits * factor 10 decimal.exponent * factor 2 (-interval.exponent)

/-- A point of an interval times the same common denominator. -/
def scalePoint
    (interval : Interval)
    (exponent : Int)
    (point : Nat) : Nat :=
  point * factor 2 interval.exponent * factor 10 (-exponent)

/-- Whether a decimal rounds to the number of an interval. -/
def Interval.holds
    (interval : Interval)
    (decimal : Decimal) : Bool :=
  let scaled := scaleDecimal interval decimal
  let low := scalePoint interval decimal.exponent interval.low
  let high := scalePoint interval decimal.exponent interval.high
  if interval.closed then low ≤ scaled && scaled ≤ high
  else low < scaled && scaled < high

/-- How far a decimal lies from the number of an interval, in the common unit. -/
def Interval.distance
    (interval : Interval)
    (decimal : Decimal) : Nat :=
  let scaled := scaleDecimal interval decimal
  let value := scalePoint interval decimal.exponent interval.value
  (scaled - value) + (value - scaled)

/-- The greatest decimal of an exponent that does not exceed the number. -/
def Interval.floorAt
    (interval : Interval)
    (exponent : Int) : Decimal :=
  ⟨scalePoint interval exponent interval.value /
    (factor 10 exponent * factor 2 (-interval.exponent)), exponent⟩

/-- The decimal with a given exponent that rounds to the number, if there is one: the
nearer of its two neighbours, and the even one when they are equally near. -/
def Interval.decimalAt?
    (interval : Interval)
    (exponent : Int) : Option Decimal :=
  let below := interval.floorAt exponent
  let above : Decimal := ⟨below.digits + 1, exponent⟩
  match interval.holds below, interval.holds above with
  | false, false => none
  | true, false => some below
  | false, true => some above
  | true, true =>
      let distanceBelow := interval.distance below
      let distanceAbove := interval.distance above
      if distanceBelow < distanceAbove then some below
      else if distanceAbove < distanceBelow then some above
      else some (if below.digits % 2 = 0 then below else above)

/-- The number of decimal digits of a natural number. -/
def digitCount (value : Nat) : Nat :=
  (Nat.toDigits 10 value).length

/-- The greatest `k` with `10 ^ k ≤ numerator / denominator`. -/
def floorLog10 (numerator denominator : Nat) : Int :=
  if denominator ≤ numerator then digitCount (numerator / denominator) - 1
  else -(digitCount ((denominator + numerator - 1) / numerator - 1) : Int)

/-- The decimal exponent of the leading digit of the number of an interval. -/
def Interval.leadingExponent (interval : Interval) : Int :=
  floorLog10 (interval.value * factor 2 interval.exponent) (factor 2 (-interval.exponent))

/-- The largest number of digits that a number can need. -/
def mostDigits : Nat := 17

/-- The first hit among growing numbers of digits. -/
def Interval.shortest (interval : Interval) : Decimal :=
  let leading := interval.leadingExponent
  let exponents := (List.range mostDigits).map fun count : Nat => leading - count
  (exponents.findSome? interval.decimalAt?).getD (interval.floorAt (leading - 16))

/-- Move trailing zeros of the digits into the exponent. `bound` is at least the
number of digits. -/
def dropZeros : Nat → Decimal → Decimal
  | 0, decimal => decimal
  | bound + 1, decimal =>
      if decimal.digits ≠ 0 ∧ decimal.digits % 10 = 0 then
        dropZeros bound ⟨decimal.digits / 10, decimal.exponent + 1⟩
      else decimal

end Shortest

/-- The shortest digits of a positive magnitude. -/
def shortestDecimal
    (significand : Nat)
    (exponent : Int) : Decimal :=
  Shortest.dropZeros (Shortest.mostDigits + 1) (Shortest.intervalOf significand exponent).shortest

end Binary64
end ScriptHost
