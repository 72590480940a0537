import LabelledMap.Decimal.Rounded
import LabelledMap.Decimal.Shortest

/-!
# Double precision numbers in decimal

The written forms of IEEE double precision numbers. `Double.numeral` takes a number apart into its
sign, its whole mantissa and its power of two, and hands the last two to one of the ways to choose
digits.
-/

set_option autoImplicit false

open Float.Model

namespace LabelledMap.Double

/-- The least power of two that is the unit of a double precision number. -/
def leastExponent : Int := -1074

/-- The numeral of a number whose digits and power of ten are chosen from its mantissa and power of
two; `zeroExponent` is the power of ten of a zero. -/
def numeral (digits : Nat → Int → Nat × Int) (zeroExponent : Int) (value : Float) : Numeral :=
  match value.toModel.unpack with
  | .notANumber => .notANumber
  | .infinity sign => .infinite (sign == .negative)
  | .zero sign => .finite (sign == .negative) 0 zeroExponent
  | .finite sign mantissa exponent _ =>
    let (chosen, power) := digits mantissa exponent
    .finite (sign == .negative) chosen power

/-- The numeral with the fewest digits that is read back as the number. -/
def shortest (tie : Tie) : Float → Numeral :=
  numeral (fun mantissa exponent ↦ shortestDecimal tie mantissa exponent
    (mantissa == twoTo 52 && leastExponent < exponent)) 0

/-- The numeral with a number of decimal places that is nearest to the number. -/
def rounded (places : Nat) : Float → Numeral :=
  numeral (fun mantissa exponent ↦ (toPlaces places mantissa exponent, -(places : Int)))
    (-(places : Int))

instance : Legible Float where
  shortest := shortest
  rounded := rounded

end LabelledMap.Double
