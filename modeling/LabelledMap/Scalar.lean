/-!
# Scalars

Coordinates, lengths, zoom levels and times on the map are all numbers of one kind. `Scalar` lists
what the library asks of that kind: the four operations, comparisons, literals, rounding to whole
units, the length of a displacement and the count of device pixels. The class states no laws, so
every definition of the library runs on binary floating point, and a statement about exact
arithmetic is a statement about another instance.

Comparisons may be partial: a value that is not equal to itself stands for "not a number", and
`Scalar.lesser`, `Scalar.greater` and `Scalar.clamp` say what becomes of it.
-/

set_option autoImplicit false

namespace LabelledMap

/-- The numbers a map is measured in. -/
class Scalar (α : Type) extends Add α, Sub α, Mul α, Div α, Neg α, LE α, LT α, BEq α where
  [decidableLE : DecidableLE α]
  [decidableLT : DecidableLT α]
  /-- A whole number. -/
  ofNat : Nat → α
  /-- A decimal literal: the digits, whether the power of ten divides, and that power. -/
  ofDecimal : Nat → Bool → Nat → α
  /-- The nearest whole number; a half goes away from zero. -/
  round : α → α
  isFinite : α → Bool
  /-- The length of a displacement with these two components. -/
  length : α → α → α
  /-- The whole part as a count, cut off at both ends of its range; a value that is not a number
  counts as zero. -/
  toUInt32 : α → UInt32

attribute [reducible, instance] Scalar.decidableLE Scalar.decidableLT

-- Numbers that have these operations already go on using their own.
attribute [instance (50)] Scalar.toAdd Scalar.toSub Scalar.toMul Scalar.toDiv Scalar.toNeg
  Scalar.toLE Scalar.toLT Scalar.toBEq Scalar.decidableLE Scalar.decidableLT

namespace Scalar

variable {α : Type} [Scalar α]

instance (priority := 50) (value : Nat) : OfNat α value := ⟨ofNat value⟩

instance (priority := 50) : OfScientific α := ⟨ofDecimal⟩

/-- The smaller of two values; of two equal ones, which may be zeros of either sign, the second. A
value that is not a number gives way to the other one. -/
def lesser (left right : α) : α :=
  if right == right then (if left < right then left else right) else left

/-- The larger of two values; of two equal ones, which may be zeros of either sign, the second. A
value that is not a number gives way to the other one. -/
def greater (left right : α) : α :=
  if right == right then (if right < left then left else right) else left

/-- The value nearest to `value` between `low` and `high`; a value that is not a number stays. -/
def clamp (value low high : α) : α :=
  if value < low then low else if high < value then high else value

/-- Ten to the power of `exponent`. -/
def powerOfTen (exponent : Nat) : α := ofDecimal 1 false exponent

end Scalar

/-- Scalars with the functions that carry a globe onto a plane. -/
class Analytic (α : Type) extends Scalar α where
  /-- Two to the power of a value. -/
  exp2 : α → α
  exp : α → α
  /-- The natural logarithm. -/
  ln : α → α
  sin : α → α
  arctan : α → α
  pi : α

namespace Analytic

variable {α : Type} [Analytic α]

/-- An angle in radians, from degrees. -/
def radians (degrees : α) : α := degrees * (pi / 180)

/-- An angle in degrees, from radians. -/
def degrees (radians : α) : α := radians * (180 / pi)

end Analytic

end LabelledMap
