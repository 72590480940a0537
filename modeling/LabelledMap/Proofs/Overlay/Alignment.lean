import LabelledMap.Proofs.Renderer.Runs
import LabelledMap.Proofs.Scalar.Exact

/-!
# The overlay stays in line with the map

While the map moves, the overlay is not drawn again but moved and scaled. In exact arithmetic, what
was drawn on it stays where the moving map shows it, up to one residue: the corner of a padded frame
is a whole pixel, which is at most one half away from the corner that the padding asks for, and
scaling the overlay scales this distance along (`Placement.locate_following`,
`Frame.abs_min_padded_sub_le`).

`Renderer.placement_aligned` says so of a renderer after any run. It needs a projection that grows
with the zoom level, `Projection.ScalesFrom`, as the Mercator projection does
(`Projection.mercator_scalesFrom`).
-/

set_option autoImplicit false

namespace LabelledMap

/-! ### Projections that grow with the zoom level -/

/-- At every zoom level the world is the one of the level `drawn`, at the scale between the two. -/
def Projection.ScalesFrom (projection : Projection ℝ) (drawn : ℝ) : Prop :=
  ∀ place zoom, projection.project place zoom =
    zoomScale zoom drawn • projection.project place drawn

/-- The side of the world grows by the scale between two levels. -/
theorem worldSize_eq_zoomScale_mul (zoom drawn : ℝ) :
    worldSize zoom = zoomScale zoom drawn * worldSize drawn := by
  change tileSize * (2 : ℝ) ^ zoom = 2 ^ (zoom - drawn) * (tileSize * 2 ^ drawn)
  rw [mul_left_comm, ← Real.rpow_add two_pos, sub_add_cancel]

theorem Projection.mercator_scalesFrom (drawn : ℝ) :
    (mercator : Projection ℝ).ScalesFrom drawn := by
  intro place zoom
  unfold mercator
  simp only [worldSize_eq_zoomScale_mul zoom drawn]
  ext
  · exact mul_left_comm _ _ _
  · exact mul_left_comm _ _ _

/-- Nothing is scaled at the level of the last drawing. -/
theorem zoomScale_self (zoom : ℝ) : zoomScale zoom zoom = 1 := by
  change (2 : ℝ) ^ (zoom - zoom) = 1
  rw [sub_self, Real.rpow_zero]

/-! ### The residue of a padded frame -/

/-- Corners in order are the rectangle's own. -/
theorem Rect.ofCorners_of_le {corner opposite : Point ℝ} (hx : corner.x ≤ opposite.x)
    (hy : corner.y ≤ opposite.y) : ofCorners corner opposite = ⟨corner, opposite⟩ := by
  unfold ofCorners
  simp only [Exact.lesser_eq_min, Exact.greater_eq_max, min_eq_left hx, max_eq_right hx,
    min_eq_left hy, max_eq_right hy]

namespace Frame

variable (origin : Point ℝ) {window : Point ℝ} {padding : ℝ}

/-- One side of a padded frame is not negative. -/
theorem round_le_round_add (corner : ℝ) {extent : ℝ} (hextent : 0 ≤ extent)
    (hpadding : 0 ≤ padding) :
    Exact.round corner ≤ Exact.round (Exact.round corner + (1 + 2 * padding) * extent) := by
  obtain ⟨whole, hwhole⟩ := Exact.exists_round_eq_intCast corner
  have hside : 0 ≤ (1 + 2 * padding) * extent := mul_nonneg (by linarith) hextent
  calc Exact.round corner
      = Exact.round (Exact.round corner) := by rw [hwhole, Exact.round_intCast]
    _ ≤ Exact.round (Exact.round corner + (1 + 2 * padding) * extent) :=
        Exact.round_mono (le_add_of_nonneg_right hside)

/-- The corners of a padded frame: the top left one that the padding asks for, rounded, and the one
that is as far from there as the padding asks for, rounded again. -/
theorem bounds_padded (hwidth : 0 ≤ window.x) (hheight : 0 ≤ window.y) (hpadding : 0 ≤ padding)
    (center : LatLng ℝ) (zoom : ℝ) :
    (Frame.padded origin window padding center zoom).bounds =
      ⟨(origin - padding • window).round,
        ((origin - padding • window).round + (1 + 2 * padding) • window).round⟩ := by
  have hx := round_le_round_add (origin.x - padding * window.x) hwidth hpadding
  have hy := round_le_round_add (origin.y - padding * window.y) hheight hpadding
  unfold Frame.padded
  simp only [Exact.one_eq, Exact.numeral_eq]
  exact Rect.ofCorners_of_le hx hy

/-- The top left corner of a padded frame is the rounded corner that the padding asks for. -/
theorem min_padded (hwidth : 0 ≤ window.x) (hheight : 0 ≤ window.y) (hpadding : 0 ≤ padding)
    (center : LatLng ℝ) (zoom : ℝ) :
    (Frame.padded origin window padding center zoom).bounds.min =
      (origin - padding • window).round := by
  rw [bounds_padded origin hwidth hheight hpadding]

/-- A padded frame begins at most half a pixel from where the padding asks it to. -/
theorem abs_min_padded_sub_le (hwidth : 0 ≤ window.x) (hheight : 0 ≤ window.y)
    (hpadding : 0 ≤ padding) (center : LatLng ℝ) (zoom : ℝ) :
    let residue := (Frame.padded origin window padding center zoom).bounds.min -
      (origin - padding • window)
    |residue.x| ≤ 1 / 2 ∧ |residue.y| ≤ 1 / 2 := by
  intro residue
  have hresidue : residue = (origin - padding • window).round - (origin - padding • window) := by
    rw [← min_padded origin hwidth hheight hpadding center zoom]
  rw [hresidue]
  exact ⟨Exact.abs_round_sub_le _, Exact.abs_round_sub_le _⟩

end Frame

/-! ### Following the map -/

/-- Where a view shows a place, in layer pixels: the view's centre is in the middle of its window.
-/
noncomputable def Projection.shownAt (projection : Projection ℝ) (origin window : Point ℝ)
    (center : LatLng ℝ) (zoom : ℝ) (place : LatLng ℝ) : Point ℝ :=
  origin + (0.5 : ℝ) • window + projection.project place zoom - projection.project center zoom

/-- What the view drawn for shows at a place is moved next to where the other view shows it. The
distance is that from the corner that the padding asks for to the corner drawn from, less the same
distance scaled. -/
theorem Placement.locate_following {projection : Projection ℝ} (drawn : DrawnView ℝ)
    (hscales : projection.ScalesFrom drawn.zoom) (origin : Point ℝ) (padding : ℝ)
    (center : LatLng ℝ) (zoom : ℝ) (place : LatLng ℝ) :
    let pixel := projection.shownAt origin drawn.window drawn.center drawn.zoom place -
      drawn.position
    (following projection drawn padding center zoom).locate pixel -
        projection.shownAt origin drawn.window center zoom place =
      (1 - zoomScale zoom drawn.zoom) • (drawn.position - (origin - padding • drawn.window)) := by
  intro pixel
  unfold following locate
  simp only [pixel, Projection.shownAt, hscales place zoom, hscales drawn.center zoom]
  ext
  · simp only [Point.add_x, Point.sub_x, Point.smul_x, Exact.half_eq]
    ring
  · simp only [Point.add_y, Point.sub_y, Point.smul_y, Exact.half_eq]
    ring

/-- For the view it was drawn for, the overlay stays where it was put, unscaled. -/
theorem Placement.following_self (projection : Projection ℝ) (drawn : DrawnView ℝ) (padding : ℝ) :
    following projection drawn padding drawn.center drawn.zoom = .unscaled drawn.position := by
  unfold following unscaled
  simp only [zoomScale_self]
  ext
  · simp only [Point.add_x, Point.sub_x, Point.smul_x]
    ring
  · simp only [Point.add_y, Point.sub_y, Point.smul_y]
    ring
  · simp only [Exact.one_eq]

/-- A residue is scaled by the change of scale, and so is a bound of it. -/
theorem abs_smul_residue_le {residue : Point ℝ}
    (hresidue : |residue.x| ≤ 1 / 2 ∧ |residue.y| ≤ 1 / 2) (factor : ℝ) :
    |(factor • residue).x| ≤ |factor| / 2 ∧ |(factor • residue).y| ≤ |factor| / 2 := by
  have hbound : ∀ value, |value| ≤ 1 / 2 → |factor * value| ≤ |factor| / 2 := by
    intro value hvalue
    calc |factor * value| = |factor| * |value| := abs_mul factor value
      _ ≤ |factor| * (1 / 2) := mul_le_mul_of_nonneg_left hvalue (abs_nonneg factor)
      _ = |factor| / 2 := mul_one_div _ _
  exact ⟨hbound _ hresidue.1, hbound _ hresidue.2⟩

/-- The overlay stays in line with the map, after any run of a renderer. Assumes: the last pass was
begun with a padded frame whose window and padding are not negative, the options still have that
padding, and the projection grows with the zoom level from that of the frame, as the Mercator
projection does from any. Then there is a placement for every target view; for the view drawn for it
is the frame's corner, unscaled. A place drawn at a pixel of the element is moved next to where the
target view shows it: the distance is the residue of the frame's corner, less the residue scaled, at
most half the change of scale in a pixel on each axis, and nothing while the zoom level is the same.
-/
theorem Renderer.placement_aligned (start : Renderer ℝ) (operations : List (Operation ℝ))
    (origin window : Point ℝ) (padding : ℝ) (center : LatLng ℝ) (zoom : ℝ)
    (hwidth : 0 ≤ window.x) (hheight : 0 ≤ window.y) (hpadding : 0 ≤ padding)
    (hlast : lastFrame? operations = some (.padded origin window padding center zoom))
    (hoptions : (start.run operations).options.padding = padding)
    (hscales : (start.run operations).projection.ScalesFrom zoom) :
    let final := start.run operations
    let shownAt := final.projection.shownAt origin window
    let corner := (Frame.padded origin window padding center zoom).bounds.min
    (∀ level, (Projection.mercator : Projection ℝ).ScalesFrom level) ∧
      final.layout.map Layout.origin = some (-corner) ∧
      ∀ target targetZoom, ∃ placement, final.placement? target targetZoom = some placement ∧
        placement.scale = zoomScale targetZoom zoom ∧
        (target = center → targetZoom = zoom → placement = .unscaled corner) ∧
        ∀ place,
          let pixel := shownAt center zoom place - corner
          let error := placement.locate pixel - shownAt target targetZoom place
          error = (1 - placement.scale) • (corner - (origin - padding • window)) ∧
            |error.x| ≤ |1 - placement.scale| / 2 ∧ |error.y| ≤ |1 - placement.scale| / 2 ∧
            (targetZoom = zoom → placement.locate pixel = shownAt target targetZoom place) := by
  intro final shownAt corner
  obtain ⟨hdrawn, ratio, hlayout⟩ := remembered_run start hlast
  refine ⟨Projection.mercator_scalesFrom, by rw [hlayout]; rfl, fun target targetZoom ↦ ?_⟩
  let drawn := DrawnView.ofFrame (Frame.padded origin window padding center zoom)
  refine ⟨.following final.projection drawn padding target targetZoom, ?_, rfl, ?_, fun place ↦ ?_⟩
  · unfold placement?
    rw [hdrawn, hoptions]
    rfl
  · rintro rfl rfl
    exact Placement.following_self final.projection drawn padding
  · intro pixel error
    have herror : error =
        (1 - zoomScale targetZoom zoom) • (corner - (origin - padding • window)) :=
      Placement.locate_following drawn hscales origin padding target targetZoom place
    obtain ⟨hx, hy⟩ := abs_smul_residue_le
      (Frame.abs_min_padded_sub_le origin hwidth hheight hpadding center zoom)
      (1 - zoomScale targetZoom zoom)
    refine ⟨herror, herror ▸ hx, herror ▸ hy, ?_⟩
    rintro rfl
    rw [zoomScale_self, sub_self] at herror
    ext
    · have herrorX : error.x = 0 := by rw [herror, Point.smul_x, zero_mul]
      exact sub_eq_zero.mp herrorX
    · have herrorY : error.y = 0 := by rw [herror, Point.smul_y, zero_mul]
      exact sub_eq_zero.mp herrorY

/-- One level closer everything is twice as large, and what was drawn is at most half a pixel off.
-/
theorem Renderer.placement_aligned_closer :
    let start : Renderer ℝ := .new .standard 32
    let frame := Frame.padded ⟨0, 0⟩ ⟨200, 100⟩ start.options.padding ⟨-22.68, 118.35⟩ 7
    let final := start.run [.beginPass frame, .setBusy true, .setDevicePixelRatio 2]
    let shownAt := final.projection.shownAt ⟨0, 0⟩ ⟨200, 100⟩
    ∀ target, ∃ placement, final.placement? target 8 = some placement ∧ placement.scale = 2 ∧
      ∀ place,
        let pixel := shownAt ⟨-22.68, 118.35⟩ 7 place - frame.bounds.min
        let error := placement.locate pixel - shownAt target 8 place
        |error.x| ≤ 1 / 2 ∧ |error.y| ≤ 1 / 2 := by
  intro start frame final shownAt target
  have hpadding : 0 ≤ start.options.padding := by
    change (0 : ℝ) ≤ 0.1
    norm_num
  have haligned := placement_aligned start [.beginPass frame, .setBusy true, .setDevicePixelRatio 2]
    ⟨0, 0⟩ ⟨200, 100⟩ start.options.padding ⟨-22.68, 118.35⟩ 7 (by norm_num) (by norm_num) hpadding
    rfl rfl (Projection.mercator_scalesFrom 7)
  obtain ⟨placement, hplacement, hscale, -, herrors⟩ := haligned.2.2 target 8
  have htwo : placement.scale = 2 := by
    rw [hscale]
    change (2 : ℝ) ^ (8 - 7 : ℝ) = 2
    norm_num
  have hbound : |1 - placement.scale| / 2 = 1 / 2 := by
    rw [htwo]
    norm_num
  refine ⟨placement, hplacement, htwo, fun place ↦ ?_⟩
  obtain ⟨-, hx, hy, -⟩ := herrors place
  exact ⟨hbound ▸ hx, hbound ▸ hy⟩

end LabelledMap
