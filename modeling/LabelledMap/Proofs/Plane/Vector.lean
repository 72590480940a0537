import LabelledMap.Proofs.Scalar.Exact
import Mathlib.Analysis.Convex.Segment

/-!
# The plane in exact arithmetic

Points with real coordinates form a vector space under the operations they have, so that a segment
between two points is the usual one. `Point.distanceTo` is the Euclidean distance
(`Point.distanceTo_le_iff`): symmetric, zero between equal points and positive between others.
-/

set_option autoImplicit false

namespace LabelledMap

namespace Point

noncomputable section

instance : Zero (Point ℝ) := ⟨⟨0, 0⟩⟩

instance : AddCommGroup (Point ℝ) where
  add_assoc _ _ _ := Point.ext (add_assoc _ _ _) (add_assoc _ _ _)
  zero_add _ := Point.ext (zero_add _) (zero_add _)
  add_zero _ := Point.ext (add_zero _) (add_zero _)
  sub_eq_add_neg _ _ := Point.ext (sub_eq_add_neg _ _) (sub_eq_add_neg _ _)
  nsmul := nsmulRec
  zsmul := zsmulRec
  neg_add_cancel _ := Point.ext (neg_add_cancel _) (neg_add_cancel _)
  add_comm _ _ := Point.ext (add_comm _ _) (add_comm _ _)

instance : Module ℝ (Point ℝ) where
  one_smul _ := Point.ext (one_mul _) (one_mul _)
  mul_smul _ _ _ := Point.ext (mul_assoc _ _ _) (mul_assoc _ _ _)
  smul_zero _ := Point.ext (mul_zero _) (mul_zero _)
  smul_add _ _ _ := Point.ext (mul_add _ _ _) (mul_add _ _ _)
  add_smul _ _ _ := Point.ext (add_mul _ _ _) (add_mul _ _ _)
  zero_smul _ := Point.ext (zero_mul _) (zero_mul _)

end

/-- A distance is within reach if its square is within the square of the reach. -/
theorem distanceTo_le_iff {point other : Point ℝ} {reach : ℝ} :
    point.distanceTo other ≤ reach ↔
      0 ≤ reach ∧ (other.x - point.x) ^ 2 + (other.y - point.y) ^ 2 ≤ reach ^ 2 :=
  Real.sqrt_le_iff

theorem distanceTo_comm (point other : Point ℝ) : point.distanceTo other = other.distanceTo point :=
  congrArg Real.sqrt (by ring)

theorem distanceTo_self (point : Point ℝ) : point.distanceTo point = 0 := by
  change √((point.x - point.x) ^ 2 + (point.y - point.y) ^ 2) = 0
  rw [sub_self, sub_self, zero_pow two_ne_zero, add_zero, Real.sqrt_zero]

theorem distanceTo_pos {point other : Point ℝ} (hne : point ≠ other) :
    0 < point.distanceTo other := by
  refine lt_of_not_ge fun hle ↦ hne ?_
  obtain ⟨-, hsquares⟩ := distanceTo_le_iff.mp hle
  have hx := sq_nonneg (other.x - point.x)
  have hy := sq_nonneg (other.y - point.y)
  have hxzero : other.x - point.x = 0 := pow_eq_zero_iff two_ne_zero |>.mp (by linarith)
  have hyzero : other.y - point.y = 0 := pow_eq_zero_iff two_ne_zero |>.mp (by linarith)
  exact Point.ext (sub_eq_zero.mp hxzero).symm (sub_eq_zero.mp hyzero).symm

end Point

end LabelledMap
