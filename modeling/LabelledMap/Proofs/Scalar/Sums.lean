import LabelledMap.Scalar.Double
import Mathlib

/-!
# Sums of doubles

The double precision numbers that labels are placed with are rounded after each operation, and a sum
of two of them need not be the exact one. What still holds is that rounding keeps the order: a
number is at most its sum with one that is finite and not negative (`Double.le_add`), whatever is
lost and even where the sum is too large for the format. So it is the lesser of the two
(`Double.lesser_add`), which is all that a box with a corner and a width asks of its arithmetic. A
sum of finite numbers is always a number (`Double.add_beq_self`).

A finite number is a mantissa with an exponent; `Double.units` counts it in the smallest positive
numbers of the format. `Double.RoundsTo` is what rounding guarantees of a size: the rounded number
lies on the same side of every number of the format as the size does. From there on only the counts
are compared.
-/

set_option autoImplicit false

namespace LabelledMap.Double

open Float.Model Float.Model.UnpackedFloat

/-! ### Mantissas and exponents -/

/-- The pairs of a mantissa and an exponent that the format has: all 53 digits are used, unless the
exponent is the smallest one. -/
def Canonical (mantissa : Nat) (exponent : Int) : Prop :=
  mantissa < 2 ^ 53 ∧ -1074 ≤ exponent ∧ (2 ^ 52 ≤ mantissa ∨ exponent = -1074)

/-- How often the smallest positive number of the format goes into a number. -/
def units (mantissa : Nat) (exponent : Int) : Nat := mantissa * 2 ^ (exponent + 1074).toNat

theorem units_lt_of_exponent_lt {m n : Nat} {e f : Int} (hm : Canonical m e) (hn : Canonical n f)
    (hlt : e < f) : units m e < units n f := by
  obtain ⟨hm, he, -⟩ := hm
  obtain ⟨-, -, hn⟩ := hn
  have hn : 2 ^ 52 ≤ n := hn.resolve_right (by omega)
  calc units m e < 2 ^ 53 * 2 ^ (e + 1074).toNat :=
        Nat.mul_lt_mul_of_pos_right hm (Nat.two_pow_pos _)
    _ = 2 ^ 52 * 2 ^ ((e + 1074).toNat + 1) := by rw [Nat.pow_succ]; ring
    _ ≤ 2 ^ 52 * 2 ^ (f + 1074).toNat :=
        Nat.mul_le_mul_left _ (Nat.pow_le_pow_right (by omega) (by omega))
    _ ≤ units n f := Nat.mul_le_mul_right _ hn

/-- Canonical pairs are compared as the numbers they stand for. -/
theorem compare_units {m n : Nat} {e f : Int} (hm : Canonical m e) (hn : Canonical n f) :
    (compare e f).then (compare m n) = compare (units m e) (units n f) := by
  rcases lt_trichotomy e f with hlt | rfl | hgt
  · rw [compare_lt_iff_lt.mpr hlt, compare_lt_iff_lt.mpr (units_lt_of_exponent_lt hm hn hlt)]
    rfl
  · have hpos := Nat.two_pow_pos (e + 1074).toNat
    rw [compare_eq_iff_eq.mpr rfl]
    unfold units
    rcases lt_trichotomy m n with hlt | rfl | hgt
    · rw [compare_lt_iff_lt.mpr hlt, compare_lt_iff_lt.mpr (Nat.mul_lt_mul_of_pos_right hlt hpos)]
      rfl
    · simp
    · rw [compare_gt_iff_gt.mpr hgt, compare_gt_iff_gt.mpr (Nat.mul_lt_mul_of_pos_right hgt hpos)]
      rfl
  · rw [compare_gt_iff_gt.mpr hgt, compare_gt_iff_gt.mpr (units_lt_of_exponent_lt hn hm hgt)]
    rfl

/-! ### Rounding -/

/-- A mantissa without its last digits, which are remembered as far as rounding needs them. -/
def cutOff (mantissa count : Nat) : ExtendedMantissa :=
  ExtendedMantissa.ofMantissaAndAccuracy mantissa .exact >>> count

theorem mantissa_cutOff (mantissa count : Nat) :
    (cutOff mantissa count).mantissa = mantissa / 2 ^ count := by
  induction count with
  | zero => exact (Nat.div_one _).symm
  | succ count ih =>
    change (cutOff mantissa count).mantissa / 2 = _
    rw [ih, Nat.div_div_eq_div_mul, Nat.pow_succ]

theorem cutOff_mul (whole count : Nat) :
    cutOff (whole * 2 ^ count) count = ⟨whole, false, false⟩ := by
  induction count generalizing whole with
  | zero => rw [Nat.pow_zero, Nat.mul_one]; rfl
  | succ count ih =>
    change (cutOff (whole * 2 ^ (count + 1)) count).shiftRightOne = _
    rw [Nat.pow_succ, Nat.mul_comm (2 ^ count) 2, ← Nat.mul_assoc, ih (whole * 2)]
    unfold ExtendedMantissa.shiftRightOne
    simp

theorem roundedMantissa_bounds (extended : ExtendedMantissa) :
    extended.mantissa ≤ extended.roundedMantissa ∧
      extended.roundedMantissa ≤ extended.mantissa + 1 := by
  obtain ⟨mantissa, roundBit, stickyBit⟩ := extended
  unfold ExtendedMantissa.roundedMantissa
  cases roundBit <;> cases stickyBit <;>
    simp only [ExtendedMantissa.accuracy, Accuracy.roundToNearestEven] <;> omega

theorem le_rounded {mantissa count whole : Nat} (hle : whole * 2 ^ count ≤ mantissa) :
    whole ≤ (cutOff mantissa count).roundedMantissa := by
  refine le_trans ?_ (roundedMantissa_bounds _).1
  rw [mantissa_cutOff]
  exact (Nat.le_div_iff_mul_le (Nat.two_pow_pos count)).mpr hle

theorem rounded_le {mantissa count whole : Nat} (hle : mantissa ≤ whole * 2 ^ count) :
    (cutOff mantissa count).roundedMantissa ≤ whole := by
  rcases Nat.eq_or_lt_of_le hle with rfl | hlt
  · rw [cutOff_mul]
    exact Nat.le_refl whole
  · refine le_trans (roundedMantissa_bounds _).2 ?_
    rw [mantissa_cutOff]
    exact (Nat.div_lt_iff_lt_mul (Nat.two_pow_pos count)).mpr hlt

/-- How many digits of a mantissa are too many for the format. -/
def excess (mantissa : Nat) (exponent : Int) : Nat :=
  (max ((mantissa.log2 : Int) + 1 + exponent - 53) (-1074) - exponent).toNat

theorem shiftToTargetExponent_eq (mantissa : Nat) (exponent : Int) :
    shiftToTargetExponent .binary64 mantissa exponent .exact =
      (cutOff mantissa (excess mantissa exponent), exponent + excess mantissa exponent) := rfl

theorem shift_of_lt {mantissa : Nat} {exponent : Int} (hmantissa : mantissa < 2 ^ 53)
    (hexponent : -1074 ≤ exponent) :
    shiftToTargetExponent .binary64 mantissa exponent .exact =
      (⟨mantissa, false, false⟩, exponent) := by
  have hlog : mantissa.log2 < 53 := by
    rcases Nat.eq_zero_or_pos mantissa with rfl | hpos
    · decide
    · exact (Nat.log2_lt hpos.ne').mpr hmantissa
  have hexcess : excess mantissa exponent = 0 := by
    unfold excess
    omega
  rw [shiftToTargetExponent_eq, hexcess]
  exact Prod.ext rfl (add_zero exponent)

theorem shift_carry {exponent : Int} (hexponent : -1074 ≤ exponent) :
    shiftToTargetExponent .binary64 (2 ^ 53) exponent .exact =
      (⟨2 ^ 52, false, false⟩, exponent + 1) := by
  have hexcess : excess (2 ^ 53) exponent = 1 := by
    unfold excess
    rw [Nat.log2_two_pow]
    omega
  rw [shiftToTargetExponent_eq, hexcess]
  exact Prod.ext (cutOff_mul (2 ^ 52) 1) rfl

/-- A size is rounded to a number of the format that lies on the same side of every other one. -/
structure RoundsTo (size mantissa : Nat) (exponent : Int) : Prop where
  canonical : Canonical mantissa exponent
  above : ∀ {m e}, Canonical m e → units m e ≤ size → units m e ≤ units mantissa exponent
  below : ∀ {m e}, Canonical m e → size ≤ units m e → units mantissa exponent ≤ units m e

/-- A size is rounded if the next whole multiple of a unit is taken, on either side of it, and the
size has no more digits than the format can tell apart in this unit. -/
theorem roundsTo_of_whole {size whole count : Nat} (hlow : count = 0 ∨ 2 ^ 52 * 2 ^ count ≤ size)
    (hle : ∀ other, other * 2 ^ count ≤ size → other ≤ whole)
    (hge : ∀ other, size ≤ other * 2 ^ count → whole ≤ other)
    {mantissa : Nat} {exponent : Int} (hcanonical : Canonical mantissa exponent)
    (hunits : units mantissa exponent = whole * 2 ^ count) : RoundsTo size mantissa exponent := by
  -- A kept number with a smaller unit is smaller than all sizes that are rounded to this unit.
  have hsmaller : ∀ {m e}, Canonical m e → (e + 1074).toNat < count →
      units m e < 2 ^ 52 * 2 ^ count := by
    intro m e hkept hunit
    calc units m e < 2 ^ 53 * 2 ^ (e + 1074).toNat :=
          Nat.mul_lt_mul_of_pos_right hkept.1 (Nat.two_pow_pos _)
      _ = 2 ^ 52 * 2 ^ ((e + 1074).toNat + 1) := by rw [Nat.pow_succ]; ring
      _ ≤ 2 ^ 52 * 2 ^ count := Nat.mul_le_mul_left _ (Nat.pow_le_pow_right (by omega) hunit)
  have hlarger : ∀ {m e}, count ≤ (e + 1074).toNat →
      units m e = m * 2 ^ ((e + 1074).toNat - count) * 2 ^ count := by
    intro m e hunit
    rw [Nat.mul_assoc, ← Nat.pow_add, Nat.sub_add_cancel hunit]
    rfl
  refine ⟨hcanonical, fun {m e} hkept hbelow ↦ ?_, fun {m e} hkept habove ↦ ?_⟩
  · rw [hunits]
    rcases Nat.lt_or_ge (e + 1074).toNat count with hunit | hunit
    · have hwhole : 2 ^ 52 ≤ whole := hle _ (hlow.resolve_left (by omega))
      exact (hsmaller hkept hunit).le.trans (Nat.mul_le_mul_right _ hwhole)
    · rw [hlarger hunit] at hbelow ⊢
      exact Nat.mul_le_mul_right _ (hle _ hbelow)
  · rw [hunits]
    rcases Nat.lt_or_ge (e + 1074).toNat count with hunit | hunit
    · have hsize := hlow.resolve_left (by omega)
      exact absurd (hsmaller hkept hunit) (Nat.not_lt.mpr (hsize.trans habove))
    · rw [hlarger hunit] at habove ⊢
      exact Nat.mul_le_mul_right _ (hge _ habove)

theorem log2_mul_two_pow {value : Nat} (hvalue : value ≠ 0) (count : Nat) :
    (value * 2 ^ count).log2 = value.log2 + count := by
  have hpos := Nat.two_pow_pos count
  refine (Nat.log2_eq_iff (Nat.mul_ne_zero hvalue hpos.ne')).mpr ⟨?_, ?_⟩
  · rw [Nat.pow_add]
    exact Nat.mul_le_mul_right _ (Nat.log2_self_le hvalue)
  · rw [Nat.add_right_comm, Nat.pow_add]
    exact Nat.mul_lt_mul_of_pos_right Nat.lt_log2_self hpos

/-- A mantissa that is long enough is rounded by cutting it off; a carry into a new digit is put
right afterwards. -/
theorem roundWithAccuracy_roundsTo (sign : Sign) {m : Nat} {e : Int} (hm : 0 < m) (he : -1074 ≤ e)
    (hlong : e + excess m e = max ((m.log2 : Int) + 1 + e - 53) (-1074)) :
    ∃ m' e' h, roundWithAccuracy .binary64 sign m e .exact = .finite sign m' e' h ∧
      RoundsTo (units m e) m' e' := by
  let whole := (cutOff m (excess m e)).roundedMantissa
  let count := (e + excess m e + 1074).toNat
  have hcount : 2 ^ count = 2 ^ excess m e * 2 ^ (e + 1074).toNat := by
    rw [← Nat.pow_add]
    congr 1
    omega
  have hpos := Nat.two_pow_pos (e + 1074).toNat
  have hle : ∀ other, other * 2 ^ count ≤ units m e → other ≤ whole := by
    intro other hother
    rw [hcount, ← Nat.mul_assoc] at hother
    exact le_rounded (Nat.le_of_mul_le_mul_right hother hpos)
  have hge : ∀ other, units m e ≤ other * 2 ^ count → whole ≤ other := by
    intro other hother
    rw [hcount, ← Nat.mul_assoc] at hother
    exact rounded_le (Nat.le_of_mul_le_mul_right hother hpos)
  have hlow : count = 0 ∨ 2 ^ 52 * 2 ^ count ≤ units m e := by
    refine (Nat.eq_zero_or_pos count).imp_right fun hcount ↦ ?_
    have hdigits : 52 + count = m.log2 + (e + 1074).toNat := by omega
    rw [← Nat.pow_add, hdigits, Nat.pow_add]
    exact Nat.mul_le_mul_right _ (Nat.log2_self_le hm.ne')
  have hhigh : units m e ≤ 2 ^ 53 * 2 ^ count := by
    have hdigits : m.log2 + 1 + (e + 1074).toNat ≤ 53 + count := by omega
    calc units m e ≤ 2 ^ (m.log2 + 1) * 2 ^ (e + 1074).toNat :=
          Nat.mul_le_mul_right _ Nat.lt_log2_self.le
      _ ≤ 2 ^ 53 * 2 ^ count := by
          rw [← Nat.pow_add, ← Nat.pow_add]
          exact Nat.pow_le_pow_right (by omega) hdigits
  have hwhole : whole ≤ 2 ^ 53 := hge _ hhigh
  have hexponent : -1074 ≤ e + excess m e := by omega
  have hpositive : 0 < whole := by
    rcases hlow with hzero | hlow
    · exact hle 1 (by rw [hzero]; exact Nat.mul_pos hm hpos)
    · exact (by decide : 0 < 2 ^ 52).trans_le (hle _ hlow)
  have hround : roundWithAccuracy .binary64 sign m e .exact =
      let shifted := shiftToTargetExponent .binary64 whole (e + excess m e) .exact
      if h : shifted.1.mantissa = 0 then .zero sign
      else .finite sign shifted.1.mantissa shifted.2 (Nat.pos_of_ne_zero h) := rfl
  rcases Nat.lt_or_eq_of_le hwhole with hlt | heq
  · rw [shift_of_lt hlt hexponent] at hround
    simp only [hpositive.ne', dite_false] at hround
    refine ⟨_, _, _, hround, roundsTo_of_whole hlow hle hge ⟨hlt, hexponent, ?_⟩ rfl⟩
    rcases hlow with hzero | hlow
    · exact Or.inr (by omega)
    · exact Or.inl (hle _ hlow)
  · rw [heq, shift_carry hexponent] at hround
    refine ⟨2 ^ 52, e + excess m e + 1, by decide, hround,
      roundsTo_of_whole hlow hle hge ⟨by decide, by omega, Or.inl (Nat.le_refl _)⟩ ?_⟩
    have hnext : (e + excess m e + 1 + 1074).toNat = count + 1 := by omega
    unfold units
    rw [hnext, heq, Nat.pow_succ]
    ring

/-- Every size is rounded, one with too few digits after it has been given more of them. -/
theorem round_roundsTo (sign : Sign) {m : Nat} {e : Int} (hm : 0 < m) (he : -1074 ≤ e) :
    ∃ m' e' h, UnpackedFloat.round .binary64 sign m e = .finite sign m' e' h ∧
      RoundsTo (units m e) m' e' := by
  let count := (e - max ((m.log2 : Int) + 1 + e - 53) (-1074)).toNat
  have hround : UnpackedFloat.round .binary64 sign m e =
      roundWithAccuracy .binary64 sign (m <<< count) (e - count) .exact := rfl
  have hlog := log2_mul_two_pow hm.ne' count
  have hunits : units (m * 2 ^ count) (e - count) = units m e := by
    unfold units
    rw [Nat.mul_assoc, ← Nat.pow_add]
    congr 2
    omega
  rw [hround, Nat.shiftLeft_eq, ← hunits]
  refine roundWithAccuracy_roundsTo sign (Nat.mul_pos hm (Nat.two_pow_pos count)) (by omega) ?_
  unfold excess
  rw [hlog]
  omega

/-! ### Packing -/

theorem exponentBias_binary64 : ((Format.binary64.exponentBias : Nat) : Int) = 1023 := rfl

theorem toNat_implicit_append (mantissa : BitVec 52) :
    (1#1 ++ mantissa).toNat = 2 ^ 52 + mantissa.toNat := by
  rw [BitVec.toNat_append, ← Nat.shiftLeft_add_eq_or_of_lt mantissa.isLt]
  rfl

theorem log2_eq_52 {m : Nat} (hlow : 2 ^ 52 ≤ m) (hhigh : m < 2 ^ 53) : m.log2 = 52 :=
  (Nat.log2_eq_iff (by omega)).mpr ⟨hlow, hhigh⟩

/-- Numbers of the format: finite ones have a canonical mantissa and exponent within its range. -/
inductive InFormat : UnpackedFloat → Prop
  | notANumber : InFormat .notANumber
  | infinity (sign : Sign) : InFormat (.infinity sign)
  | zero (sign : Sign) : InFormat (.zero sign)
  | finite (sign : Sign) {mantissa : Nat} {exponent : Int} (hpos : 0 < mantissa)
      (hcanonical : Canonical mantissa exponent) (hrange : exponent ≤ 971) :
      InFormat (.finite sign mantissa exponent hpos)

/-- What bits stand for is a number of the format. -/
theorem inFormat_unpack (bits : BitVec Format.binary64.numBits) :
    InFormat (UnpackedFloat.unpack .binary64 bits) := by
  have hmantissa : (unpackMantissa bits).toNat < 2 ^ 52 := (unpackMantissa bits).isLt
  have hexponent : (unpackExponent bits).toNat < 2048 := (unpackExponent bits).isLt
  rw [UnpackedFloat.unpack]
  split_ifs with hhigh hzero hlow hzero
  · exact .infinity _
  · exact .notANumber
  · exact .zero _
  · have hlowest : (unpackExponent bits).toNat = 0 := by rw [hlow]; rfl
    refine .finite _ _ ⟨by omega, ?_, Or.inr ?_⟩ ?_
    all_goals rw [hlowest, exponentBias_binary64]; decide
  · have hhigh : (unpackExponent bits).toNat ≠ 2047 := fun hbits ↦
      hhigh (BitVec.eq_of_toNat_eq hbits)
    have hlow : (unpackExponent bits).toNat ≠ 0 := fun hbits ↦
      hlow (BitVec.eq_of_toNat_eq hbits)
    refine .finite _ _ ⟨?_, ?_, Or.inl ?_⟩ ?_
    · rw [toNat_implicit_append]
      omega
    · rw [exponentBias_binary64]
      dsimp only
      omega
    · rw [toNat_implicit_append]
      omega
    · rw [exponentBias_binary64]
      dsimp only
      omega

/-- A number as it is once it has been turned into bits. -/
def kept (number : UnpackedFloat) : UnpackedFloat := (Float.Model.pack number).unpack

theorem kept_zero (sign : Sign) : kept (.zero sign) = .zero sign := by
  cases sign <;> rfl

theorem kept_infinity (sign : Sign) : kept (.infinity sign) = .infinity sign := by
  cases sign <;> rfl

/-- A number that is too large for the format becomes infinite. -/
theorem kept_of_large (sign : Sign) {m : Nat} {e : Int} (hpos : 0 < m) (hlarge : 971 < e) :
    kept (.finite sign m e hpos) = .infinity sign := by
  have hpacked : UnpackedFloat.pack .binary64 (.finite sign m e hpos) =
      packedInfinity .binary64 sign := by
    rw [UnpackedFloat.pack, exponentBias_binary64]
    exact if_pos (by dsimp only; omega)
  change UnpackedFloat.unpack _ (UnpackedFloat.pack .binary64 _) = _
  rw [hpacked]
  exact kept_infinity sign

theorem kept_of_subnormal (sign : Sign) {m : Nat} (hpos : 0 < m) (hm : m < 2 ^ 52) :
    kept (.finite sign m (-1074) hpos) = .finite sign m (-1074) hpos := by
  have hlog : m.log2 < 52 := (Nat.log2_lt hpos.ne').mpr hm
  have hbits : Format.binary64.mantissaBits = 53 := rfl
  have hpacked : UnpackedFloat.pack .binary64 (.finite sign m (-1074) hpos) =
      packComponents .binary64 sign 0#11 (BitVec.ofNat 52 m) := by
    rw [UnpackedFloat.pack, exponentBias_binary64]
    exact (if_neg (by decide)).trans (if_neg (by rw [hbits]; omega))
  have hmantissa : (BitVec.ofNat 52 m).toNat = m := by
    rw [BitVec.toNat_ofNat, Nat.mod_eq_of_lt hm]
  have hne : BitVec.ofNat 52 m ≠ 0#52 := by
    intro hzero
    rw [hzero] at hmantissa
    exact hpos.ne hmantissa
  change UnpackedFloat.unpack _ (UnpackedFloat.pack .binary64 _) = _
  rw [hpacked, UnpackedFloat.unpack]
  simp only [unpackMantissa_packComponents, unpackExponent_packComponents,
    unpackSign_packComponents, Sign.ofBitVec_toBitVec, hmantissa]
  rw [if_neg (by decide), if_pos trivial, dif_neg hne]
  rfl

theorem kept_of_normal (sign : Sign) {m : Nat} {e : Int} (hpos : 0 < m) (hlow : 2 ^ 52 ≤ m)
    (hhigh : m < 2 ^ 53) (he : -1074 ≤ e) (hrange : e ≤ 971) :
    kept (.finite sign m e hpos) = .finite sign m e hpos := by
  have hbits : Format.binary64.mantissaBits = 53 := rfl
  have hpacked : UnpackedFloat.pack .binary64 (.finite sign m e hpos) =
      packComponents .binary64 sign (BitVec.ofNat 11 (e + 1023 + 52).toNat)
        (BitVec.ofNat 52 m) := by
    rw [UnpackedFloat.pack, exponentBias_binary64]
    exact (if_neg (by dsimp only; omega)).trans (if_pos (by rw [hbits, log2_eq_52 hlow hhigh]))
  have hmantissa : (1#1 ++ BitVec.ofNat 52 m).toNat = m := by
    rw [toNat_implicit_append, BitVec.toNat_ofNat]
    omega
  have hexponent : (BitVec.ofNat 11 (e + 1023 + 52).toNat).toNat = (e + 1075).toNat := by
    rw [BitVec.toNat_ofNat]
    omega
  have hfirst : BitVec.ofNat 11 (e + 1023 + 52).toNat ≠ 0#11 := by
    intro hzero
    rw [hzero] at hexponent
    change 0 = _ at hexponent
    omega
  have hlast : BitVec.ofNat 11 (e + 1023 + 52).toNat ≠ -1#11 := by
    intro hones
    rw [hones] at hexponent
    change 2047 = _ at hexponent
    omega
  change UnpackedFloat.unpack _ (UnpackedFloat.pack .binary64 _) = _
  rw [hpacked, UnpackedFloat.unpack]
  simp only [unpackMantissa_packComponents, unpackExponent_packComponents,
    unpackSign_packComponents, Sign.ofBitVec_toBitVec, hmantissa, hexponent,
    exponentBias_binary64]
  rw [if_neg hlast, if_neg hfirst]
  congr 1
  omega

/-- The numbers of the format stay what they are. -/
theorem kept_of_inFormat {number : UnpackedFloat} (hformat : InFormat number) :
    kept number = number := by
  cases hformat with
  | notANumber => rfl
  | infinity sign => exact kept_infinity sign
  | zero sign => exact kept_zero sign
  | @finite sign m e hpos hcanonical hrange =>
    obtain ⟨hm, he, hdigits⟩ := hcanonical
    rcases Nat.lt_or_ge m (2 ^ 52) with hlow | hlow
    · obtain rfl := hdigits.resolve_left (by omega)
      exact kept_of_subnormal sign hpos hlow
    · exact kept_of_normal sign hpos hlow hm he hrange

/-! ### Sums -/

theorem units_shiftLeft {m : Nat} {e lower : Int} (hlower : lower ≤ e) (hlow : -1074 ≤ lower) :
    units (m <<< (e - lower).toNat) lower = units m e := by
  unfold units
  rw [Nat.shiftLeft_eq, Nat.mul_assoc, ← Nat.pow_add]
  congr 2
  omega

theorem positive_le_positive {m n : Nat} {e f : Int} (hm : Canonical m e) (hn : Canonical n f)
    (hmpos : 0 < m) (hnpos : 0 < n) (hle : units m e ≤ units n f) :
    UnpackedFloat.le (.finite .positive m e hmpos) (.finite .positive n f hnpos) = true := by
  change ((compare e f).then (compare m n)).isLE = true
  rw [compare_units hm hn]
  exact Nat.isLE_compare.mpr hle

theorem negative_le_negative {m n : Nat} {e f : Int} (hm : Canonical m e) (hn : Canonical n f)
    (hmpos : 0 < m) (hnpos : 0 < n) (hle : units n f ≤ units m e) :
    UnpackedFloat.le (.finite .negative m e hmpos) (.finite .negative n f hnpos) = true := by
  change ((compare e f).then (compare m n)).swap.isLE = true
  rw [compare_units hm hn, Ordering.isLE_swap]
  exact Nat.isGE_compare.mpr hle

theorem le_kept_round_positive {lower : UnpackedFloat} {size : Nat} {exponent : Int}
    (hpos : 0 < size) (hexponent : -1074 ≤ exponent)
    (hinfinity : lower.le (.infinity .positive) = true)
    (hfinite : ∀ {m e} (h : 0 < m), RoundsTo (units size exponent) m e →
      lower.le (.finite .positive m e h) = true) :
    lower.le (kept (UnpackedFloat.round .binary64 .positive size exponent)) = true := by
  obtain ⟨m, e, h, hround, hrounds⟩ := round_roundsTo .positive hpos hexponent
  rw [hround]
  rcases le_or_gt e 971 with hrange | hrange
  · rw [kept_of_inFormat (.finite _ h hrounds.canonical hrange)]
    exact hfinite h hrounds
  · rw [kept_of_large _ h hrange]
    exact hinfinity

theorem le_kept_round_negative {m size : Nat} {e exponent : Int} (hpos : 0 < size)
    (hexponent : -1074 ≤ exponent) (hmpos : 0 < m) (hcanonical : Canonical m e)
    (hrange : e ≤ 971) (hle : units size exponent ≤ units m e) :
    UnpackedFloat.le (.finite .negative m e hmpos)
      (kept (UnpackedFloat.round .binary64 .negative size exponent)) = true := by
  obtain ⟨n, f, h, hround, hrounds⟩ := round_roundsTo .negative hpos hexponent
  have hsize : units n f ≤ units m e := hrounds.below hcanonical hle
  have hf : f ≤ e := by
    by_contra hlarger
    exact absurd (units_lt_of_exponent_lt hcanonical hrounds.canonical (not_le.mp hlarger))
      (Nat.not_lt.mpr hsize)
  rw [hround, kept_of_inFormat (.finite _ h hrounds.canonical (hf.trans hrange))]
  exact negative_le_negative hcanonical hrounds.canonical hmpos h hsize

theorem le_kept_normalize_positive {m left right : Nat} {e exponent : Int} (hmpos : 0 < m)
    (hm : Canonical m e) (hexponent : -1074 ≤ exponent) (hright : 0 < right)
    (hunits : units left exponent = units m e) :
    UnpackedFloat.le (.finite .positive m e hmpos)
      (kept (UnpackedFloat.normalize .binary64 (left + right) exponent .positive)) = true := by
  have hnormal : UnpackedFloat.normalize .binary64 (left + right) exponent .positive =
      UnpackedFloat.round .binary64 .positive (left + right) exponent := by
    unfold UnpackedFloat.normalize
    rw [compare_gt_iff_gt.mpr (by omega : (0 : Int) < left + right)]
    rfl
  rw [hnormal]
  refine le_kept_round_positive (by omega) hexponent rfl fun h hrounds ↦ ?_
  refine positive_le_positive hm hrounds.canonical hmpos h (hrounds.above hm ?_)
  rw [← hunits]
  exact Nat.mul_le_mul_right _ (Nat.le_add_right left right)

theorem le_kept_normalize_negative {m left right : Nat} {e exponent : Int} (hmpos : 0 < m)
    (hm : Canonical m e) (hrange : e ≤ 971) (hexponent : -1074 ≤ exponent)
    (hunits : units left exponent = units m e) :
    UnpackedFloat.le (.finite .negative m e hmpos)
      (kept (UnpackedFloat.normalize .binary64 (-left + right) exponent .positive)) = true := by
  unfold UnpackedFloat.normalize
  rcases lt_trichotomy (-(left : Int) + right) 0 with hless | hequal | hgreater
  · rw [compare_lt_iff_lt.mpr hless]
    refine le_kept_round_negative (by omega) hexponent hmpos hm hrange ?_
    rw [← hunits]
    exact Nat.mul_le_mul_right _ (by omega)
  · rw [hequal]
    change UnpackedFloat.le _ (kept (.zero .positive)) = true
    rw [kept_zero]
    rfl
  · rw [compare_gt_iff_gt.mpr hgreater]
    exact le_kept_round_positive (by omega) hexponent rfl fun _ _ ↦ rfl

theorem le_kept_add_positive {m n : Nat} {e f : Int} (sign : Sign) (hmpos : 0 < m) (hnpos : 0 < n)
    (hm : Canonical m e) (hrange : e ≤ 971) (hn : Canonical n f) :
    UnpackedFloat.le (.finite sign m e hmpos) (kept (UnpackedFloat.add .binary64
      (.finite sign m e hmpos) (.finite .positive n f hnpos))) = true := by
  have hlow : -1074 ≤ min e f := le_min hm.2.1 hn.2.1
  have hmunits := units_shiftLeft (m := m) (min_le_left e f) hlow
  have hshifted : 0 < n <<< (f - min e f).toNat := by
    rw [Nat.shiftLeft_eq]
    exact Nat.mul_pos hnpos (Nat.two_pow_pos _)
  have hadd : UnpackedFloat.add .binary64 (.finite sign m e hmpos) (.finite .positive n f hnpos) =
      UnpackedFloat.normalize .binary64
        (sign.apply (m <<< (e - min e f).toNat) + (n <<< (f - min e f).toNat))
        (min e f) .positive := rfl
  rw [hadd]
  cases sign with
  | positive => exact le_kept_normalize_positive hmpos hm hlow hshifted hmunits
  | negative => exact le_kept_normalize_negative hmpos hm hrange hlow hmunits

theorem infinity_le_kept_infinity (sign : Sign) :
    UnpackedFloat.le (.infinity sign) (kept (.infinity sign)) = true := by
  rw [kept_infinity]
  cases sign <;> rfl

/-- A number is at most its rounded sum with one that is finite and not negative. -/
theorem le_kept_add {number added : UnpackedFloat} (hnumber : InFormat number)
    (hvalue : number ≠ .notANumber) (hadded : InFormat added) (hfinite : added.isFinite = true)
    (hsign : added.lt (.zero .positive) = false) :
    number.le (kept (UnpackedFloat.add .binary64 number added)) = true := by
  cases hadded with
  | notANumber => cases hfinite
  | infinity sign => cases hfinite
  | zero sign =>
    cases hnumber with
    | notANumber => exact absurd rfl hvalue
    | infinity other => exact infinity_le_kept_infinity other
    | zero other => cases other <;> cases sign <;> rfl
    | finite other hpos hcanonical hrange =>
      change UnpackedFloat.le _ (kept (.finite other _ _ hpos)) = true
      rw [kept_of_inFormat (.finite other hpos hcanonical hrange)]
      cases other with
      | positive => exact positive_le_positive hcanonical hcanonical hpos hpos (Nat.le_refl _)
      | negative => exact negative_le_negative hcanonical hcanonical hpos hpos (Nat.le_refl _)
  | @finite sign n f hpos hcanonical hrange =>
    cases sign with
    | negative => cases hsign
    | positive =>
      cases hnumber with
      | notANumber => exact absurd rfl hvalue
      | infinity other => exact infinity_le_kept_infinity other
      | zero other =>
        change UnpackedFloat.le _ (kept (.finite .positive n f hpos)) = true
        rw [kept_of_inFormat (.finite _ hpos hcanonical hrange)]
        rfl
      | finite other hother hkept hlimit =>
        exact le_kept_add_positive other hother hpos hkept hlimit hcanonical

theorem kept_finite_ne_notANumber (sign : Sign) {m : Nat} {e : Int} (hpos : 0 < m)
    (hcanonical : Canonical m e) : kept (.finite sign m e hpos) ≠ .notANumber := by
  rcases le_or_gt e 971 with hrange | hrange
  · rw [kept_of_inFormat (.finite sign hpos hcanonical hrange)]
    exact UnpackedFloat.noConfusion
  · rw [kept_of_large sign hpos hrange]
    exact UnpackedFloat.noConfusion

theorem kept_normalize_ne_notANumber (total : Int) {exponent : Int}
    (hexponent : -1074 ≤ exponent) :
    kept (UnpackedFloat.normalize .binary64 total exponent .positive) ≠ .notANumber := by
  have hround : ∀ (sign : Sign) {size : Nat}, 0 < size →
      kept (UnpackedFloat.round .binary64 sign size exponent) ≠ .notANumber := by
    intro sign size hpos
    obtain ⟨m, e, h, hround, hrounds⟩ := round_roundsTo sign hpos hexponent
    rw [hround]
    exact kept_finite_ne_notANumber sign h hrounds.canonical
  unfold UnpackedFloat.normalize
  rcases lt_trichotomy total 0 with hless | rfl | hgreater
  · rw [compare_lt_iff_lt.mpr hless]
    exact hround _ (by omega)
  · change kept (.zero .positive) ≠ _
    rw [kept_zero]
    exact UnpackedFloat.noConfusion
  · rw [compare_gt_iff_gt.mpr hgreater]
    exact hround _ (by omega)

theorem kept_add_ne_notANumber {x y : UnpackedFloat} (hx : InFormat x) (hy : InFormat y)
    (hxfinite : x.isFinite = true) (hyfinite : y.isFinite = true) :
    kept (UnpackedFloat.add .binary64 x y) ≠ .notANumber := by
  cases hx with
  | notANumber => cases hxfinite
  | infinity sign => cases hxfinite
  | zero sign =>
    cases hy with
    | notANumber => cases hyfinite
    | infinity other => cases hyfinite
    | zero other => cases sign <;> cases other <;> exact UnpackedFloat.noConfusion
    | finite other hpos hcanonical hrange =>
      exact kept_finite_ne_notANumber other hpos hcanonical
  | finite sign hpos hcanonical hrange =>
    cases hy with
    | notANumber => cases hyfinite
    | infinity other => cases hyfinite
    | zero other => exact kept_finite_ne_notANumber sign hpos hcanonical
    | finite other hother hkept hlimit =>
      exact kept_normalize_ne_notANumber _ (le_min hcanonical.2.1 hkept.2.1)

/-! ### Sums of doubles -/

theorem le_iff_unpack {x y : Float} : x ≤ y ↔ x.toModel.unpack.le y.toModel.unpack = true :=
  decide_eq_true_iff

theorem lt_iff_unpack {x y : Float} : x < y ↔ x.toModel.unpack.lt y.toModel.unpack = true :=
  decide_eq_true_iff

theorem beq_eq_unpack (x y : Float) : (x == y) = x.toModel.unpack.beq y.toModel.unpack := rfl

theorem le_iff {x y : Float} : x ≤ y ↔ x < y ∨ (x == y) = true := by
  rw [le_iff_unpack, lt_iff_unpack, beq_eq_unpack]
  unfold UnpackedFloat.le UnpackedFloat.lt UnpackedFloat.beq
  rcases x.toModel.unpack.compare y.toModel.unpack with _ | order
  · decide
  · cases order <;> decide

/-- A number is at most its sum with one that is finite and not negative. -/
theorem le_add {value added : Float} (hvalue : (value == value) = true)
    (hfinite : added.isFinite = true) (hsign : ¬added < 0) : value ≤ value + added := by
  have hnumber : value.toModel.unpack ≠ .notANumber := by
    intro hnan
    rw [beq_eq_unpack, hnan] at hvalue
    cases hvalue
  have hzero : added.toModel.unpack.lt (.zero .positive) = false :=
    Bool.eq_false_iff.mpr fun hless ↦ hsign (lt_iff_unpack.mpr hless)
  exact le_iff_unpack.mpr
    (le_kept_add (inFormat_unpack _) hnumber (inFormat_unpack _) hfinite hzero)

/-- Of a number and its sum with one that is finite and not negative the number is the lesser. -/
theorem lesser_add {value added : Float} (hvalue : (value == value) = true)
    (hfinite : added.isFinite = true) (hsign : ¬added < 0) :
    (Scalar.lesser value (value + added) == value) = true := by
  unfold Scalar.lesser
  split_ifs with hsum hless
  · exact hvalue
  · exact BEq.symm ((le_iff.mp (le_add hvalue hfinite hsign)).resolve_left hless)
  · exact hvalue

/-- The sum of finite numbers is a number. -/
theorem add_beq_self {x y : Float} (hx : x.isFinite = true) (hy : y.isFinite = true) :
    (x + y == x + y) = true := by
  refine Float.beq_self_iff.mpr fun hnan ↦ ?_
  have hunpacked : kept (UnpackedFloat.add .binary64 x.toModel.unpack y.toModel.unpack) =
      .notANumber := congrArg (fun value ↦ value.toModel.unpack) hnan
  exact kept_add_ne_notANumber (inFormat_unpack _) (inFormat_unpack _) hx hy hunpacked

end LabelledMap.Double
