import LabelledMap.Plane.Rect
import LabelledMap.Scalar
import Mathlib.Analysis.SpecialFunctions.Pow.Real
import Mathlib.Analysis.SpecialFunctions.Trigonometric.Arctan

/-!
# Exact arithmetic

The map over the real numbers. Statements about exact arithmetic are statements about this instance
of `Scalar` and `Analytic`, in which every operation is the function it is named after and rounding
(`Exact.round`) goes to the nearest whole number, halves away from zero.

Rounding is monotone (`Exact.round_mono`), leaves whole numbers alone (`Exact.round_intCast`) and
moves a value by at most one half (`Exact.abs_round_sub_le`).
-/

set_option autoImplicit false

namespace LabelledMap

namespace Exact

noncomputable section

/-- The nearest whole number; a half goes away from zero. -/
def round (value : ℝ) : ℝ := if 0 ≤ value then ⌊value + 1 / 2⌋ else ⌈value - 1 / 2⌉

/-- The whole part as a count, cut off at both ends of its range. -/
def toUInt32 (value : ℝ) : UInt32 := UInt32.ofNat (min ⌊value⌋₊ (2 ^ 32 - 1))

instance : Scalar ℝ where
  decidableLE := inferInstance
  decidableLT := inferInstance
  toBEq := instBEqOfDecidableEq
  ofNat := Nat.cast
  ofDecimal := OfScientific.ofScientific
  round := round
  isFinite _ := true
  length x y := √(x ^ 2 + y ^ 2)
  toUInt32 := toUInt32

instance : Analytic ℝ where
  exp2 value := 2 ^ value
  exp := Real.exp
  ln := Real.log
  sin := Real.sin
  arctan := Real.arctan
  pi := Real.pi

end

/-! ### Literals and operations -/

@[simp] theorem zero_eq : @OfNat.ofNat ℝ 0 (Scalar.instOfNat 0) = 0 := Nat.cast_zero

@[simp] theorem one_eq : @OfNat.ofNat ℝ 1 (Scalar.instOfNat 1) = 1 := Nat.cast_one

@[simp] theorem numeral_eq (value : ℕ) [value.AtLeastTwo] :
    @OfNat.ofNat ℝ value (Scalar.instOfNat value) = OfNat.ofNat value := rfl

@[simp] theorem half_eq :
    @OfScientific.ofScientific ℝ Scalar.instOfScientific 5 true 1 = 1 / 2 := by
  change (0.5 : ℝ) = 1 / 2
  norm_num

@[simp] theorem scalar_round_eq (value : ℝ) : Scalar.round value = round value := rfl

theorem lesser_eq_min (left right : ℝ) : Scalar.lesser left right = min left right := by
  unfold Scalar.lesser
  simp only [beq_self_eq_true, if_true]
  split_ifs with hlt
  · exact (min_eq_left hlt.le).symm
  · exact (min_eq_right (not_lt.mp hlt)).symm

theorem greater_eq_max (left right : ℝ) : Scalar.greater left right = max left right := by
  unfold Scalar.greater
  simp only [beq_self_eq_true, if_true]
  split_ifs with hlt
  · exact (max_eq_left hlt.le).symm
  · exact (max_eq_right (not_lt.mp hlt)).symm

/-- Between bounds in order, the nearest value is the one of the order. -/
theorem clamp_eq_max_min (value : ℝ) {low high : ℝ} (hbounds : low ≤ high) :
    Scalar.clamp value low high = max low (min high value) := by
  unfold Scalar.clamp
  split_ifs with hbelow habove
  · rw [min_eq_right (hbelow.le.trans hbounds), max_eq_left hbelow.le]
  · rw [min_eq_left habove.le, max_eq_right hbounds]
  · rw [min_eq_right (not_lt.mp habove), max_eq_right (not_lt.mp hbelow)]

/-! ### Rounding -/

/-- What is rounded to is whole. -/
theorem exists_round_eq_intCast (value : ℝ) : ∃ whole : ℤ, round value = whole := by
  unfold round
  split_ifs
  · exact ⟨_, rfl⟩
  · exact ⟨_, rfl⟩

/-- A whole number stays. -/
theorem round_intCast (whole : ℤ) : round whole = whole := by
  unfold round
  split_ifs
  · rw [Int.floor_intCast_add, show ⌊(1 / 2 : ℝ)⌋ = 0 by norm_num, add_zero]
  · have hceil : ⌈(whole : ℝ) - 1 / 2⌉ = whole :=
      Int.ceil_eq_iff.mpr ⟨by linarith, by linarith⟩
    rw [hceil]

/-- Below zero a half is rounded down. -/
theorem round_intCast_add_half {whole : ℤ} (hneg : whole < 0) : round (whole + 1 / 2) = whole := by
  have hle : (whole : ℝ) + 1 ≤ 0 := by exact_mod_cast hneg
  unfold round
  rw [if_neg (by linarith), add_sub_cancel_right, Int.ceil_intCast]

/-- A larger value is not rounded to a smaller number. -/
theorem round_mono {value other : ℝ} (hle : value ≤ other) : round value ≤ round other := by
  unfold round
  split_ifs with hvalue hother hother
  · exact Int.cast_le.mpr (Int.floor_le_floor (by linarith))
  · exact absurd (hvalue.trans hle) hother
  · have hbelow : ⌈value - 1 / 2⌉ ≤ 0 := Int.ceil_le.mpr (by push_cast; linarith)
    have habove : 0 ≤ ⌊other + 1 / 2⌋ := Int.le_floor.mpr (by push_cast; linarith)
    exact Int.cast_le.mpr (hbelow.trans habove)
  · exact Int.cast_le.mpr (Int.ceil_le_ceil (by linarith))

/-- Rounding moves a value by at most one half. -/
theorem abs_round_sub_le (value : ℝ) : |round value - value| ≤ 1 / 2 := by
  unfold round
  rw [abs_le]
  split_ifs
  · have hlow := Int.sub_one_lt_floor (value + 1 / 2)
    have hhigh := Int.floor_le (value + 1 / 2)
    constructor <;> linarith
  · have hlow := Int.le_ceil (value - 1 / 2)
    have hhigh := Int.ceil_lt_add_one (value - 1 / 2)
    constructor <;> linarith

/-- Of the values that are not negative, those below one half are rounded to zero. -/
theorem round_eq_zero_iff {value : ℝ} (hvalue : 0 ≤ value) : round value = 0 ↔ value < 1 / 2 := by
  unfold round
  rw [if_pos hvalue, Int.cast_eq_zero, Int.floor_eq_zero_iff, Set.mem_Ico]
  constructor
  · rintro ⟨-, hlt⟩
    linarith
  · intro hlt
    constructor <;> linarith

end Exact

end LabelledMap
