import LabelledMap.Proofs.Overlay.WholePixels

/-!
# Padded frames cover the window

A padded frame is rounded twice on each axis: its near edge is rounded, and its far edge is the
rounded sum of that and the length that the padding asks for. In exact arithmetic either rounding is
off by at most half a pixel, so the edges are whole and in order, and the frame begins within half a
pixel of where it should and is as long as it should be within half a pixel (`Frame.pads_round`). At
the far edge both errors count. One pixel of padding makes up for them, and the frame covers the
window: `Frame.padded_covers` says so of both axes, and that the device pixels behind the frame are
counted without another rounding.

With less than a pixel of padding a window may stick out (`Frame.exists_padded_not_covering`): below
zero halves are rounded down at both edges (`Frame.bounds_padded_of_halves`).
-/

set_option autoImplicit false

namespace LabelledMap

namespace Frame

/-- One axis of a padded frame, from `near` to `far`, and the window on it, which begins at `start`
and has the length `extent`. -/
structure Pads (near far start extent padding : ℝ) : Prop where
  near_whole : ∃ whole : ℤ, near = whole
  far_whole : ∃ whole : ℤ, far = whole
  near_le_far : near ≤ far
  /-- The frame begins within half a pixel of where the padding asks it to. -/
  abs_near_sub_le : |near - (start - padding * extent)| ≤ 1 / 2
  /-- The frame is as long as the padding asks for, within half a pixel. -/
  abs_length_sub_le : |far - near - (1 + 2 * padding) * extent| ≤ 1 / 2
  /-- With a pixel of padding or more the frame covers the window. -/
  covers : 1 ≤ padding * extent → Set.Icc start (start + extent) ⊆ Set.Icc near far

theorem pads_round (start : ℝ) {extent padding : ℝ} (hextent : 0 ≤ extent)
    (hpadding : 0 ≤ padding) :
    let near := Exact.round (start - padding * extent)
    Pads near (Exact.round (near + (1 + 2 * padding) * extent)) start extent padding := by
  intro near
  have hnear := Exact.abs_round_sub_le (start - padding * extent)
  have hfar := Exact.abs_round_sub_le (near + (1 + 2 * padding) * extent)
  refine ⟨Exact.exists_round_eq_intCast _, Exact.exists_round_eq_intCast _,
    round_le_round_add _ hextent hpadding, hnear, ?_, fun hmargin ↦ ?_⟩
  · rwa [sub_sub]
  · obtain ⟨hnearLow, hnearHigh⟩ := abs_le.mp hnear
    obtain ⟨hfarLow, -⟩ := abs_le.mp hfar
    -- The far edge is built from the rounded near edge, so it has to make up for both errors.
    exact Set.Icc_subset_Icc (by linarith) (by linarith)

/-- Below zero halves are rounded down, at both edges of a frame. -/
theorem bounds_padded_of_halves (origin window : Point ℝ) {padding : ℝ} {near far : ℤ}
    (hwidth : 0 ≤ window.x) (hheight : 0 ≤ window.y) (hpadding : 0 ≤ padding)
    (hnear : origin.x - padding * window.x = near + 1 / 2)
    (hfar : near + (1 + 2 * padding) * window.x = far + 1 / 2) (hnearNeg : near < 0)
    (hfarNeg : far < 0) (center : LatLng ℝ) (zoom : ℝ) :
    let bounds := (Frame.padded origin window padding center zoom).bounds
    bounds.min.x = near ∧ bounds.max.x = far := by
  intro bounds
  have hbounds : bounds = _ := bounds_padded origin hwidth hheight hpadding center zoom
  have hmin : Exact.round (origin.x - padding * window.x) = near := by
    rw [hnear, Exact.round_intCast_add_half hnearNeg]
  rw [hbounds]
  refine ⟨hmin, ?_⟩
  change Exact.round (Exact.round (origin.x - padding * window.x) +
    (1 + 2 * padding) * window.x) = far
  rw [hmin, hfar, Exact.round_intCast_add_half hfarNeg]

/-- However little the padding is short of a pixel, there is a window that sticks out. -/
theorem exists_padded_not_covering {margin : ℝ} (hmargin : 0 ≤ margin) (hlt : margin < 1)
    (center : LatLng ℝ) (zoom : ℝ) :
    ∃ (origin window : Point ℝ) (padding : ℝ), 0 ≤ window.x ∧ 0 ≤ window.y ∧ 0 ≤ padding ∧
      padding * window.x = margin ∧
      (Frame.padded origin window padding center zoom).bounds.max.x < origin.x + window.x := by
  -- The near edge is asked for at minus three and a half, the far one then at minus one and a half.
  obtain ⟨extent, hextent⟩ : ∃ extent, extent = 5 / 2 - 2 * margin := ⟨_, rfl⟩
  have hpos : 0 < extent := by linarith
  have hproduct : margin / extent * extent = margin := div_mul_cancel₀ margin hpos.ne'
  have hpadding : 0 ≤ margin / extent := div_nonneg hmargin hpos.le
  have hnear : margin - 7 / 2 - margin / extent * extent = (-4 : ℤ) + 1 / 2 := by
    rw [hproduct]
    norm_num
  have hfar : (-4 : ℤ) + (1 + 2 * (margin / extent)) * extent = (-2 : ℤ) + 1 / 2 := by
    rw [add_mul, mul_assoc, hproduct, hextent]
    push_cast
    ring
  obtain ⟨-, hmax⟩ := bounds_padded_of_halves ⟨margin - 7 / 2, 0⟩ ⟨extent, 0⟩ hpos.le le_rfl
    hpadding hnear hfar (by norm_num) (by norm_num) center zoom
  refine ⟨⟨margin - 7 / 2, 0⟩, ⟨extent, 0⟩, margin / extent, hpos.le, le_rfl, hpadding, hproduct,
    ?_⟩
  rw [hmax, hextent]
  push_cast
  linarith

/-- Padded frames are whole, in order and within half a pixel of what the padding asks for, on each
axis, and they cover the window where the padding is one pixel or more. As long as the device pixels
behind a frame can be counted, there are exactly as many on each axis as its size asks for, whatever
the display. Assumes: a window and a padding that are not negative. -/
theorem padded_covers (origin window : Point ℝ) (padding : ℝ) (hwidth : 0 ≤ window.x)
    (hheight : 0 ≤ window.y) (hpadding : 0 ≤ padding) (center : LatLng ℝ) (zoom : ℝ) :
    let frame := Frame.padded origin window padding center zoom
    let bounds := frame.bounds
    Pads bounds.min.x bounds.max.x origin.x window.x padding ∧
      Pads bounds.min.y bounds.max.y origin.y window.y padding ∧
      ∀ devicePixelRatio,
        let layout := Layout.ofFrame frame devicePixelRatio
        (bounds.size.x * layout.pixelRatio < UInt32.size →
            (layout.deviceWidth.toNat : ℝ) = bounds.size.x * layout.pixelRatio) ∧
          (bounds.size.y * layout.pixelRatio < UInt32.size →
            (layout.deviceHeight.toNat : ℝ) = bounds.size.y * layout.pixelRatio) := by
  intro frame bounds
  have hpadded : frame.IsPadded := ⟨origin, window, padding, center, zoom, rfl⟩
  have hbounds : bounds = _ := bounds_padded origin hwidth hheight hpadding center zoom
  have hx : Pads bounds.min.x bounds.max.x origin.x window.x padding := by
    rw [hbounds]
    exact pads_round origin.x hwidth hpadding
  have hy : Pads bounds.min.y bounds.max.y origin.y window.y padding := by
    rw [hbounds]
    exact pads_round origin.y hheight hpadding
  refine ⟨hx, hy, fun devicePixelRatio ↦ ⟨fun hlt ↦ ?_, fun hlt ↦ ?_⟩⟩
  · exact Layout.natCast_deviceWidth hpadded devicePixelRatio (sub_nonneg.mpr hx.near_le_far) hlt
  · exact Layout.natCast_deviceHeight hpadded devicePixelRatio (sub_nonneg.mpr hy.near_le_far) hlt

/-- Where both edges are rounded down, a pixel of padding is just enough: the frame ends where the
window does. -/
theorem padded_covers_halves :
    let frame : Frame ℝ := .padded ⟨-5 / 2, 10⟩ ⟨1 / 2, 100⟩ 2 ⟨-22.68, 118.35⟩ 7
    Set.Icc (-5 / 2) (-2) ⊆ Set.Icc frame.bounds.min.x frame.bounds.max.x ∧
      frame.bounds.max.x = -2 ∧ (Layout.ofFrame frame 3).deviceWidth.toNat = 4 := by
  intro frame
  obtain ⟨hmin, hmax⟩ : frame.bounds.min.x = (-4 : ℤ) ∧ frame.bounds.max.x = (-2 : ℤ) :=
    bounds_padded_of_halves ⟨-5 / 2, 10⟩ ⟨1 / 2, 100⟩ (by norm_num) (by norm_num) (by norm_num)
      (by norm_num) (by norm_num) (by norm_num) (by norm_num) ⟨-22.68, 118.35⟩ 7
  obtain ⟨hx, -, hdevice⟩ := padded_covers ⟨-5 / 2, 10⟩ ⟨1 / 2, 100⟩ 2 (by norm_num) (by norm_num)
    (by norm_num) ⟨-22.68, 118.35⟩ 7
  have hratio : (Layout.ofFrame frame 3).pixelRatio = 2 := by
    change Layout.pixelRatioOf (3 : ℝ) = 2
    unfold Layout.pixelRatioOf
    simp only [Exact.one_eq, Exact.numeral_eq]
    norm_num
  have hwide : frame.bounds.size.x * (Layout.ofFrame frame 3).pixelRatio = 4 := by
    change (frame.bounds.max.x - frame.bounds.min.x) * _ = _
    rw [hmin, hmax, hratio]
    norm_num
  have hcount : ((Layout.ofFrame frame 3).deviceWidth.toNat : ℝ) = 4 :=
    ((hdevice 3).1 (by rw [hwide]; norm_num)).trans hwide
  have hend : (-5 / 2 + 1 / 2 : ℝ) = -2 := by norm_num
  refine ⟨?_, by rw [hmax]; norm_num, by exact_mod_cast hcount⟩
  rw [← hend]
  exact hx.covers (by norm_num)

end Frame

end LabelledMap
