import LabelledMap.Proofs.Overlay.Alignment

/-!
# Frames and device pixels

In exact arithmetic a padded frame has whole corners, so its size is a whole number of pixels on
each axis (`Frame.IsPadded.exists_size_eq`). A whole number of device pixels is counted exactly as
long as the count can be written down (`Layout.natCast_devicePixels`), and the layout of a padded
frame has as many device pixels as its size asks for at one or two to a pixel
(`Layout.natCast_deviceWidth`, `Layout.natCast_deviceHeight`).

A layout that `Layout.Fits` has an area, and its device pixels can be counted. For a padded frame it
is then `Layout.Sharp`: what is scaled up to device pixels is scaled down again by the same factor
when they are shown on the page (`Layout.Fits.sharp`).
-/

set_option autoImplicit false

namespace LabelledMap

/-- A rectangle with whole corners is a whole number of pixels wide and high. -/
theorem Rect.exists_size_ofCorners_round_eq (corner opposite : Point ℝ) :
    ∃ width height : ℤ, (ofCorners corner.round opposite.round).size = ⟨width, height⟩ := by
  have hside : ∀ start finish : ℝ, ∃ whole : ℤ,
      Scalar.greater (Exact.round start) (Exact.round finish) -
        Scalar.lesser (Exact.round start) (Exact.round finish) = whole := by
    intro start finish
    obtain ⟨first, hfirst⟩ := Exact.exists_round_eq_intCast start
    obtain ⟨second, hsecond⟩ := Exact.exists_round_eq_intCast finish
    refine ⟨first ⊔ second - first ⊓ second, ?_⟩
    rw [hfirst, hsecond, Exact.greater_eq_max, Exact.lesser_eq_min]
    push_cast
    rfl
  obtain ⟨width, hwidth⟩ := hside corner.x opposite.x
  obtain ⟨height, hheight⟩ := hside corner.y opposite.y
  exact ⟨width, height, Point.ext hwidth hheight⟩

/-- Whether a frame is that of a window, extended on each side. -/
def Frame.IsPadded (frame : Frame ℝ) : Prop :=
  ∃ origin window padding center zoom, frame = .padded origin window padding center zoom

/-- A padded frame is a whole number of pixels wide and high. -/
theorem Frame.IsPadded.exists_size_eq {frame : Frame ℝ} (hpadded : frame.IsPadded) :
    ∃ width height : ℤ, frame.bounds.size = ⟨width, height⟩ := by
  obtain ⟨origin, window, padding, center, zoom, rfl⟩ := hpadded
  exact Rect.exists_size_ofCorners_round_eq _ _

/-- A point with whole coordinates stays. -/
theorem Point.round_intCast (x y : ℤ) : (⟨x, y⟩ : Point ℝ).round = ⟨x, y⟩ :=
  Point.ext (Exact.round_intCast x) (Exact.round_intCast y)

/-- Where the padding comes out in whole pixels, the frame has the size that it asks for. -/
theorem Frame.size_padded_of_whole {origin window : Point ℝ} {padding : ℝ}
    {left top width height : ℤ} (hcorner : origin - padding • window = ⟨left, top⟩)
    (hextent : (1 + 2 * padding) • window = ⟨width, height⟩) (hwidth : 0 ≤ width)
    (hheight : 0 ≤ height) (center : LatLng ℝ) (zoom : ℝ) :
    (Frame.padded origin window padding center zoom).bounds.size = ⟨width, height⟩ := by
  have hopposite : (⟨left, top⟩ : Point ℝ) + ⟨width, height⟩ =
      ⟨(left + width : ℤ), (top + height : ℤ)⟩ :=
    Point.ext (Int.cast_add left width).symm (Int.cast_add top height).symm
  have hright : (left : ℝ) ≤ (left + width : ℤ) :=
    Int.cast_le.mpr (le_add_of_nonneg_right hwidth)
  have hbottom : (top : ℝ) ≤ (top + height : ℤ) :=
    Int.cast_le.mpr (le_add_of_nonneg_right hheight)
  unfold Frame.padded Rect.size
  simp only [hcorner, Exact.one_eq, Exact.numeral_eq, hextent, hopposite, Point.round_intCast]
  rw [Rect.ofCorners_of_le hright hbottom, ← hopposite]
  exact Point.ext (add_sub_cancel_left _ _) (add_sub_cancel_left _ _)

namespace Layout

/-- A whole number of pixels is counted as it is, if it can be. -/
theorem natCast_devicePixels {length : ℝ} (hwhole : ∃ whole : ℤ, length = whole)
    (hnonneg : 0 ≤ length) (hlt : length < UInt32.size) :
    ((devicePixels length).toNat : ℝ) = length := by
  obtain ⟨whole, rfl⟩ := hwhole
  obtain ⟨count, rfl⟩ := Int.eq_ofNat_of_zero_le (Int.cast_nonneg_iff.mp hnonneg)
  have hcount : count < UInt32.size := by exact_mod_cast hlt
  have hround : Scalar.round (((count : ℤ) : ℝ)) = (count : ℝ) := by
    rw [Exact.scalar_round_eq, Exact.round_intCast, Int.cast_natCast]
  have hclamp : Scalar.clamp (count : ℝ) 0 4294967295 = count := by
    have hle : (count : ℝ) ≤ 4294967295 := by exact_mod_cast Nat.le_of_lt_succ hcount
    unfold Scalar.clamp
    rw [if_neg (by simp), if_neg (by simpa using hle)]
  have htoUInt32 : (Scalar.toUInt32 (count : ℝ)).toNat = count := by
    change (UInt32.ofNat (min ⌊(count : ℝ)⌋₊ (2 ^ 32 - 1))).toNat = count
    have hle : count ≤ 2 ^ 32 - 1 := Nat.le_sub_one_of_lt hcount
    rw [Nat.floor_natCast, Nat.min_eq_left hle, UInt32.toNat_ofNat_of_lt' hcount]
  unfold devicePixels
  rw [hround, Exact.zero_eq, Exact.numeral_eq, hclamp, htoUInt32, Int.cast_natCast]

/-- There are one or two device pixels to a pixel. -/
theorem pixelRatioOf_eq_one_or_two (devicePixelRatio : ℝ) :
    pixelRatioOf devicePixelRatio = 1 ∨ pixelRatioOf devicePixelRatio = 2 := by
  unfold pixelRatioOf
  split_ifs
  · exact Or.inr rfl
  · exact Or.inl Exact.one_eq

theorem pixelRatioOf_le_two (devicePixelRatio : ℝ) : pixelRatioOf devicePixelRatio ≤ 2 := by
  rcases pixelRatioOf_eq_one_or_two devicePixelRatio with hratio | hratio
  · rw [hratio]
    exact one_le_two
  · exact hratio.le

theorem pixelRatioOf_pos (devicePixelRatio : ℝ) : 0 < pixelRatioOf devicePixelRatio := by
  rcases pixelRatioOf_eq_one_or_two devicePixelRatio with hratio | hratio
  · rw [hratio]
    exact one_pos
  · rw [hratio]
    exact two_pos

/-- A whole number of pixels is a whole number of device pixels, and counted as that. -/
theorem natCast_devicePixels_mul {length : ℝ} (hwhole : ∃ whole : ℤ, length = whole)
    (devicePixelRatio : ℝ) (hnonneg : 0 ≤ length)
    (hlt : length * pixelRatioOf devicePixelRatio < UInt32.size) :
    ((devicePixels (length * pixelRatioOf devicePixelRatio)).toNat : ℝ) =
      length * pixelRatioOf devicePixelRatio := by
  obtain ⟨whole, rfl⟩ := hwhole
  have hcount : ∃ count : ℤ, (whole : ℝ) * pixelRatioOf devicePixelRatio = count := by
    rcases pixelRatioOf_eq_one_or_two devicePixelRatio with hratio | hratio
    · exact ⟨whole, by rw [hratio, mul_one]⟩
    · exact ⟨whole * 2, by rw [hratio, Int.cast_mul, Int.cast_ofNat]⟩
  exact natCast_devicePixels hcount
    (mul_nonneg hnonneg (pixelRatioOf_pos devicePixelRatio).le) hlt

/-- A padded frame is as many device pixels wide as its width asks for. -/
theorem natCast_deviceWidth {frame : Frame ℝ} (hpadded : frame.IsPadded) (devicePixelRatio : ℝ)
    (hnonneg : 0 ≤ frame.bounds.size.x)
    (hlt : frame.bounds.size.x * pixelRatioOf devicePixelRatio < UInt32.size) :
    ((ofFrame frame devicePixelRatio).deviceWidth.toNat : ℝ) =
      frame.bounds.size.x * pixelRatioOf devicePixelRatio := by
  obtain ⟨width, height, hsize⟩ := hpadded.exists_size_eq
  exact natCast_devicePixels_mul ⟨width, congrArg Point.x hsize⟩ devicePixelRatio hnonneg hlt

/-- A padded frame is as many device pixels high as its height asks for. -/
theorem natCast_deviceHeight {frame : Frame ℝ} (hpadded : frame.IsPadded) (devicePixelRatio : ℝ)
    (hnonneg : 0 ≤ frame.bounds.size.y)
    (hlt : frame.bounds.size.y * pixelRatioOf devicePixelRatio < UInt32.size) :
    ((ofFrame frame devicePixelRatio).deviceHeight.toNat : ℝ) =
      frame.bounds.size.y * pixelRatioOf devicePixelRatio := by
  obtain ⟨width, height, hsize⟩ := hpadded.exists_size_eq
  exact natCast_devicePixels_mul ⟨height, congrArg Point.y hsize⟩ devicePixelRatio hnonneg hlt

/-- The layout has an area, and its device pixels can be counted on each axis. -/
structure Fits (layout : Layout ℝ) : Prop where
  width_pos : 0 < layout.size.x
  height_pos : 0 < layout.size.y
  width_lt : layout.size.x * layout.pixelRatio < UInt32.size
  height_lt : layout.size.y * layout.pixelRatio < UInt32.size

/-- A frame that fits with two device pixels to a pixel fits on every display. -/
theorem fits_of_mul_two_lt {frame : Frame ℝ} (hwidth : 0 < frame.bounds.size.x)
    (hheight : 0 < frame.bounds.size.y) (hwidthLt : frame.bounds.size.x * 2 < UInt32.size)
    (hheightLt : frame.bounds.size.y * 2 < UInt32.size) (devicePixelRatio : ℝ) :
    (ofFrame frame devicePixelRatio).Fits where
  width_pos := hwidth
  height_pos := hheight
  width_lt := lt_of_le_of_lt
    (mul_le_mul_of_nonneg_left (pixelRatioOf_le_two devicePixelRatio) hwidth.le) hwidthLt
  height_lt := lt_of_le_of_lt
    (mul_le_mul_of_nonneg_left (pixelRatioOf_le_two devicePixelRatio) hheight.le) hheightLt

/-- The layout has an area, it has as many device pixels on each axis as its size asks for, and its
corner is the origin of the element. -/
structure Sharp (layout : Layout ℝ) : Prop where
  width_pos : 0 < layout.size.x
  height_pos : 0 < layout.size.y
  pixelRatio_pos : 0 < layout.pixelRatio
  deviceWidth : (layout.deviceWidth.toNat : ℝ) = layout.size.x * layout.pixelRatio
  deviceHeight : (layout.deviceHeight.toNat : ℝ) = layout.size.y * layout.pixelRatio
  origin : layout.origin = -layout.position

/-- The layout of a padded frame is sharp if it fits. -/
theorem Fits.sharp {frame : Frame ℝ} {devicePixelRatio : ℝ}
    (hfits : (ofFrame frame devicePixelRatio).Fits) (hpadded : frame.IsPadded) :
    (ofFrame frame devicePixelRatio).Sharp where
  width_pos := hfits.width_pos
  height_pos := hfits.height_pos
  pixelRatio_pos := pixelRatioOf_pos devicePixelRatio
  deviceWidth :=
    natCast_deviceWidth hpadded devicePixelRatio hfits.width_pos.le hfits.width_lt
  deviceHeight :=
    natCast_deviceHeight hpadded devicePixelRatio hfits.height_pos.le hfits.height_lt
  origin := rfl

end Layout

end LabelledMap
