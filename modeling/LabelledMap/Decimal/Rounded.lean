import LabelledMap.Decimal.Numeral

/-!
# Rounded decimals

A number `mantissa` times two to the power of `exponent` is rounded to a number of decimal places
by `toPlaces`. The exact value is rounded once; a half goes to the even neighbour.
-/

set_option autoImplicit false

namespace LabelledMap

/-- A quotient rounded to the nearest whole number, a half to the even neighbour. -/
def roundedQuotient (numerator denominator : Nat) : Nat :=
  let low := numerator / denominator
  let rest := numerator % denominator
  if 2 * rest < denominator then low
  else if denominator < 2 * rest then low + 1
  else Tie.even.choose low

/-- A number over a power of ten, rounded to a whole number. -/
def roundedOver (mantissa : Nat) (exponent power : Int) : Nat :=
  roundedQuotient (mantissa * twoTo exponent.toNat * tenTo (-power).toNat)
    (twoTo (-exponent).toNat * tenTo power.toNat)

/-- The digits of a number rounded to a number of decimal places. -/
def toPlaces (places mantissa : Nat) (exponent : Int) : Nat :=
  roundedOver mantissa exponent (-(places : Int))

end LabelledMap
