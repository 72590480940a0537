import LabelledMap.Proofs.Scalar.Sums

/-!
# The order of doubles

Doubles are compared by what they stand for, which is an extended real number: zeros of either sign
are equal, the infinities come first and last, and what is not a number cannot be compared at all.
`Double.value` counts a number in the smallest positive ones of the format, as `Double.units` does,
and comparing two numbers is comparing these (`Double.compare_value`).

So the order is one as usual on the doubles that are numbers, those that are equal to themselves: it
is transitive (`Double.le_trans`) and total (`Double.le_total`). Of two numbers the lesser is at
most the greater (`Double.lesser_le_greater`), and two intervals that reach each other have a number
in common (`Double.exists_between_iff`).
-/

set_option autoImplicit false

namespace LabelledMap.Double

open Float.Model Float.Model.UnpackedFloat

/-! ### What numbers stand for -/

/-- What a number stands for, in the smallest positive numbers of the format. -/
noncomputable def value : UnpackedFloat → EReal
  | .notANumber => 0
  | .infinity .positive => ⊤
  | .infinity .negative => ⊥
  | .zero _ => 0
  | .finite .positive mantissa exponent _ => (units mantissa exponent : ℝ)
  | .finite .negative mantissa exponent _ => (-units mantissa exponent : ℝ)

theorem units_pos {mantissa : Nat} (hpos : 0 < mantissa) (exponent : Int) :
    (0 : ℝ) < units mantissa exponent :=
  Nat.cast_pos.mpr (Nat.mul_pos hpos (Nat.two_pow_pos _))

theorem compare_positive (m n : Nat) :
    compare ((m : ℝ) : EReal) ((n : ℝ) : EReal) = compare m n := by
  rcases lt_trichotomy m n with hlt | rfl | hgt
  · rw [compare_lt_iff_lt.mpr hlt, compare_lt_iff_lt]
    exact_mod_cast hlt
  · rw [compare_eq_iff_eq.mpr rfl, compare_eq_iff_eq.mpr rfl]
  · rw [compare_gt_iff_gt.mpr hgt, compare_gt_iff_gt]
    exact_mod_cast hgt

theorem compare_negative (m n : Nat) :
    compare ((-m : ℝ) : EReal) ((-n : ℝ) : EReal) = (compare m n).swap := by
  rcases lt_trichotomy m n with hlt | rfl | hgt
  · rw [compare_lt_iff_lt.mpr hlt, compare_gt_iff_gt.mpr]
    · rfl
    · exact EReal.coe_lt_coe_iff.mpr (neg_lt_neg (Nat.cast_lt.mpr hlt))
  · rw [compare_eq_iff_eq.mpr rfl, compare_eq_iff_eq.mpr rfl]
    rfl
  · rw [compare_gt_iff_gt.mpr hgt, compare_lt_iff_lt.mpr]
    · rfl
    · exact EReal.coe_lt_coe_iff.mpr (neg_lt_neg (Nat.cast_lt.mpr hgt))

/-- Numbers are compared by what they stand for. -/
theorem compare_value {x y : UnpackedFloat} (hx : InFormat x) (hy : InFormat y)
    (hxnumber : x ≠ .notANumber) (hynumber : y ≠ .notANumber) :
    x.compare y = some (compare (value x) (value y)) := by
  have hlt {left right : EReal} (hless : left < right) : some .lt = some (compare left right) :=
    congrArg some (compare_lt_iff_lt.mpr hless).symm
  have hgt {left right : EReal} (hless : right < left) : some .gt = some (compare left right) :=
    congrArg some (compare_gt_iff_gt.mpr hless).symm
  have heq (same : EReal) : some .eq = some (compare same same) :=
    congrArg some (compare_eq_iff_eq.mpr rfl).symm
  have hpositive {m : Nat} (hpos : 0 < m) (e : Int) : (0 : EReal) < (units m e : ℝ) :=
    EReal.coe_pos.mpr (units_pos hpos e)
  have hnegative {m : Nat} (hpos : 0 < m) (e : Int) : ((-units m e : ℝ) : EReal) < 0 :=
    EReal.coe_neg'.mpr (neg_neg_of_pos (units_pos hpos e))
  cases hx with
  | notANumber => exact absurd rfl hxnumber
  | infinity sign =>
    cases hy with
    | notANumber => exact absurd rfl hynumber
    | infinity other =>
      cases sign <;> cases other
      · exact heq ⊥
      · exact hlt bot_lt_top
      · exact hgt bot_lt_top
      · exact heq ⊤
    | zero other =>
      cases sign with
      | negative => exact hlt EReal.bot_lt_zero
      | positive => exact hgt EReal.zero_lt_top
    | finite other =>
      cases sign with
      | negative => cases other <;> exact hlt (EReal.bot_lt_coe _)
      | positive => cases other <;> exact hgt (EReal.coe_lt_top _)
  | zero sign =>
    cases hy with
    | notANumber => exact absurd rfl hynumber
    | infinity other =>
      cases other with
      | negative => exact hgt EReal.bot_lt_zero
      | positive => exact hlt EReal.zero_lt_top
    | zero other => exact heq 0
    | finite other hother =>
      cases other with
      | negative => exact hgt (hnegative hother _)
      | positive => exact hlt (hpositive hother _)
  | @finite sign m e hpos hcanonical hrange =>
    cases hy with
    | notANumber => exact absurd rfl hynumber
    | infinity other =>
      cases other with
      | negative => cases sign <;> exact hgt (EReal.bot_lt_coe _)
      | positive => cases sign <;> exact hlt (EReal.coe_lt_top _)
    | zero other =>
      cases sign with
      | negative => exact hlt (hnegative hpos _)
      | positive => exact hgt (hpositive hpos _)
    | @finite other n f hother hkept hlimit =>
      have hunits := compare_units hcanonical hkept
      cases sign <;> cases other
      · change some ((compare e f).then (compare m n)).swap = _
        rw [hunits, ← compare_negative]
        rfl
      · exact hlt ((hnegative hpos e).trans (hpositive hother f))
      · exact hgt ((hnegative hother f).trans (hpositive hpos e))
      · change some ((compare e f).then (compare m n)) = _
        rw [hunits, ← compare_positive]
        rfl

/-! ### The order -/

theorem compare_unpack {x y : Float} (hx : x.toModel.unpack ≠ .notANumber)
    (hy : y.toModel.unpack ≠ .notANumber) : x.toModel.unpack.compare y.toModel.unpack =
      some (compare (value x.toModel.unpack) (value y.toModel.unpack)) :=
  compare_value (inFormat_unpack _) (inFormat_unpack _) hx hy

/-- A double is a number if it is equal to itself. -/
theorem number_iff {x : Float} : (x == x) = true ↔ x.toModel.unpack ≠ .notANumber := by
  rw [beq_eq_unpack]
  constructor
  · intro hself hnan
    rw [hnan] at hself
    cases hself
  · intro hnumber
    unfold UnpackedFloat.beq
    rw [compare_unpack hnumber hnumber, compare_eq_iff_eq.mpr rfl]
    rfl

/-- One double is at most another if both are numbers and what the first stands for is at most what
the second does. -/
theorem le_iff_value {x y : Float} :
    x ≤ y ↔ (x == x) = true ∧ (y == y) = true ∧
      value x.toModel.unpack ≤ value y.toModel.unpack := by
  rw [le_iff_unpack, number_iff, number_iff]
  unfold UnpackedFloat.le
  by_cases hx : x.toModel.unpack = .notANumber
  · simp [hx, UnpackedFloat.compare]
  by_cases hy : y.toModel.unpack = .notANumber
  · have hnone : x.toModel.unpack.compare .notANumber = none := by
      cases x.toModel.unpack <;> rfl
    simp [hy, hnone]
  rw [compare_unpack hx hy, Option.any_some]
  simp only [ne_eq, hx, hy, not_false_eq_true, true_and]
  exact Ordering.isLE_iff_ne_gt.trans compare_le_iff_le

theorem le_self_iff {x : Float} : x ≤ x ↔ (x == x) = true := by
  rw [le_iff_value]
  simp

theorem le_trans {x y z : Float} (hxy : x ≤ y) (hyz : y ≤ z) : x ≤ z := by
  rw [le_iff_value] at hxy hyz ⊢
  exact ⟨hxy.1, hyz.2.1, hxy.2.2.trans hyz.2.2⟩

theorem le_total {x y : Float} (hx : (x == x) = true) (hy : (y == y) = true) :
    x ≤ y ∨ y ≤ x := by
  rw [le_iff_value, le_iff_value]
  exact (LinearOrder.le_total (value x.toModel.unpack) (value y.toModel.unpack)).imp
    (fun hle ↦ ⟨hx, hy, hle⟩) fun hle ↦ ⟨hy, hx, hle⟩

/-- Of two numbers the lesser is at most the greater. -/
theorem lesser_le_greater {x y : Float} (hx : (x == x) = true) (hy : (y == y) = true) :
    Scalar.lesser x y ≤ Scalar.greater x y := by
  unfold Scalar.lesser Scalar.greater
  rw [if_pos hy, if_pos hy]
  split_ifs with hless hgreater hgreater
  · exact le_self_iff.mpr hx
  · exact le_iff.mpr (Or.inl hless)
  · exact le_iff.mpr (Or.inl hgreater)
  · exact le_self_iff.mpr hy

/-- Two intervals that are not empty have a number in common if each begins before the other
ends. -/
theorem exists_between_iff {low high low' high' : Float} (hinterval : low ≤ high)
    (hinterval' : low' ≤ high') :
    low ≤ high' ∧ low' ≤ high ↔ ∃ x, (low ≤ x ∧ x ≤ high) ∧ low' ≤ x ∧ x ≤ high' := by
  constructor
  · rintro ⟨hlow, hlow'⟩
    -- The later beginning is in both.
    have hself := le_self_iff.mpr (le_iff_value.mp hlow).1
    have hself' := le_self_iff.mpr (le_iff_value.mp hlow').1
    rcases le_total (le_self_iff.mp hself) (le_self_iff.mp hself') with hle | hle
    · exact ⟨low', ⟨hle, hlow'⟩, hself', hinterval'⟩
    · exact ⟨low, ⟨hself, hinterval⟩, hle, hlow⟩
  · rintro ⟨x, ⟨hlow, hhigh⟩, hlow', hhigh'⟩
    exact ⟨le_trans hlow hhigh', le_trans hlow' hhigh⟩

end LabelledMap.Double
