import LabelledMap.Decimal.Numeral

/-!
# Shortest decimals

A floating point number is a whole number of units in its last place, and every real number within
half a unit of it is read back as it. `shortestDecimal` finds, among the decimals in that interval,
one with the fewest digits, and of those the one nearest to the number. Two of them can be equally
near, so the caller says which one is meant.

The search goes by the number of digits. The decimals with a given power of ten form a grid, and if
any point of the grid is in the interval, then one of the two neighbours of the number is; so only
these two are looked at. Everything is done in whole numbers: the number is `mantissa / divisor`
with the interval's ends `(2 * mantissa ± reach) / (2 * divisor)`.
-/

set_option autoImplicit false

namespace LabelledMap

/-- A positive number `numerator / denominator` together with the interval of the numbers that are
read back as it, which reaches `below` and `above` in the same denominator. -/
structure Interval where
  numerator : Nat
  denominator : Nat
  below : Nat
  above : Nat
  /-- Whether the ends belong to the interval. -/
  closed : Bool

namespace Interval

/-- Whether a number given in the interval's denominator lies in the interval. -/
def contains (interval : Interval) (point : Nat) : Bool :=
  if interval.closed then
    interval.numerator ≤ point + interval.below && point ≤ interval.numerator + interval.above
  else
    interval.numerator < point + interval.below && point < interval.numerator + interval.above

/-- The interval around a whole number of units of two to the power of `exponent`. The unit below
a power of two is half as large, unless it is the least unit of all. -/
def ofBinary (mantissa : Nat) (exponent : Int) (atPowerOfTwo : Bool) : Interval :=
  let half := if atPowerOfTwo then 1 else 2
  let scale := twoTo exponent.toNat
  { numerator := 4 * mantissa * scale
    denominator := 4 * twoTo (-exponent).toNat
    below := half * scale
    above := 2 * scale
    closed := mantissa % 2 == 0 }

/-- The interval with a power of ten taken out of its unit. -/
def overPowerOfTen (interval : Interval) (exponent : Int) : Interval :=
  let up := tenTo (-exponent).toNat
  { interval with
    numerator := interval.numerator * up
    denominator := interval.denominator * tenTo exponent.toNat
    below := interval.below * up
    above := interval.above * up }

/-- The whole number in the interval that is nearest to its number. -/
def nearestWhole? (interval : Interval) (tie : Tie) : Option Nat :=
  let low := interval.numerator / interval.denominator
  let rest := interval.numerator % interval.denominator
  let lowIn := interval.contains (low * interval.denominator)
  let highIn := interval.contains ((low + 1) * interval.denominator)
  if lowIn && highIn then
    if 2 * rest < interval.denominator then some low
    else if interval.denominator < 2 * rest then some (low + 1)
    else some (tie.choose low)
  else if lowIn then some low
  else if highIn then some (low + 1)
  else none

end Interval

/-- The power of ten of the leading digit of a positive number, at most one too large. -/
def leadingPower (mantissa : Nat) (exponent : Int) : Int :=
  (exponent + (Nat.log2 mantissa : Int)) * 30103 / 100000 + 1

/-- The decimal in the interval with the fewest digits, tried from the coarsest grid on; the count
bounds the number of grids. -/
def Interval.coarsest (interval : Interval) (tie : Tie) : Nat → Int → Nat × Int
  | 0, power => (interval.numerator / interval.denominator, power)
  | count + 1, power =>
    match (interval.overPowerOfTen power).nearestWhole? tie with
    | some digits =>
      if digits = 0 then Interval.coarsest interval tie count (power - 1) else (digits, power)
    | none => Interval.coarsest interval tie count (power - 1)

/-- The shortest decimal, digits and power of ten, that is read back as `mantissa` units of two to
the power of `exponent`. -/
def shortestDecimal (tie : Tie) (mantissa : Nat) (exponent : Int) (atPowerOfTwo : Bool) :
    Nat × Int :=
  (Interval.ofBinary mantissa exponent atPowerOfTwo).coarsest tie 20
    (leadingPower mantissa exponent)

end LabelledMap
