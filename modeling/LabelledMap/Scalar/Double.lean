import LabelledMap.Decimal.Numeral
import LabelledMap.Scalar

/-!
# Double precision scalars

The scalars the map runs on are IEEE double precision numbers. All their operations are the usual
ones but the length of a displacement. `Double.length` takes the root of the sum of the squares,
which is within a unit of the last digit, and mends it once by the error that the rounding left, so
that nearly every length is the nearest number. No component is too large or too small for it, and
an infinite component makes the length infinite whatever the other one is.
-/

set_option autoImplicit false

namespace LabelledMap.Double

/-- The hypotenuse over two legs, the longer one first, whose squares neither overflow nor vanish.
The rounded root of the sum of the squares is mended by one step of Newton's method: `excess` is
the square of the root less those of the legs, in terms of the amount by which the root is longer
than a leg, which loses no digits. -/
def hypotenuse (long short : Float) : Float :=
  let root := (long * long + short * short).sqrt
  let excess :=
    if root ≤ 2 * short then
      let longer := root - short
      long * (2 * longer - long) + (longer - 2 * (long - short)) * longer
    else
      let longer := root - long
      2 * longer * (long - 2 * short) + ((4 * longer - short) * short + longer * longer)
  root - excess / (2 * root)

/-- The unit of length for displacements whose squares are out of range. -/
def farUnit : Float := Float.ofNat (twoTo 600)

/-- The length of a displacement between numbers. A component that is too short to show in the
length beside the other one is added to it, and a displacement that is too long or too short to be
squared is measured in another unit. -/
def finiteLength (x y : Float) : Float :=
  let long := if x.abs < y.abs then y.abs else x.abs
  let short := if x.abs < y.abs then x.abs else y.abs
  if short * Float.ofNat (twoTo 54) ≤ long then
    long + short
  else if Float.ofNat (twoTo 511) < long then
    hypotenuse (long / farUnit) (short / farUnit) * farUnit
  else if short < 1 / Float.ofNat (twoTo 459) then
    hypotenuse (long * farUnit) (short * farUnit) / farUnit
  else
    hypotenuse long short

/-- The length of a displacement; it is infinite as soon as one component is. -/
def length (x y : Float) : Float :=
  if x.isFinite && y.isFinite then finiteLength x y
  else if x.isInf || y.isInf then 1 / 0
  else x + y

instance : Scalar Float where
  decidableLE := inferInstance
  decidableLT := inferInstance
  ofNat := Float.ofNat
  ofDecimal := OfScientific.ofScientific
  round := Float.round
  isFinite := Float.isFinite
  length := length
  toUInt32 := Float.toUInt32

instance : Analytic Float where
  exp2 := Float.exp2
  exp := Float.exp
  ln := Float.log
  sin := Float.sin
  arctan := Float.atan
  pi := 3.14159265358979323846

end LabelledMap.Double
