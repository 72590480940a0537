import LabelledMap.Proofs.Feature.Rings
import LabelledMap.Proofs.Feature.Stroke
import Mathlib.Analysis.Convex.Jensen

/-!
# Convex polygons

With exact arithmetic a closed path with one strictly convex ring is hit by its whole polygon, the
convex hull of the ring, and by nothing further away than the stroke and the tolerance reach
(`Target.contains_convex`).

A point of the polygon lies on a side or strictly on the inner side of all of them
(`TurnsStrictly.pos_or_mem_segment`): if it is on the line of a side, it lies between the vertices
on this line. On a side the stroke is hit. Strictly inside, some side descends past the level of the
point, as some vertex is below the point and another is not (`StrictlyWithin.exists_descends`), and
no second side does, since of two such sides one would have to leave an end of the other on its
outer side (`TurnsStrictly.not_descends`). The ray meets either this side or the one that climbs
back, so it meets one side of the ring (`TurnsStrictly.countP_rayCrosses`).

Conversely, and for every ring, a ray that meets an odd number of sides misses one that passes its
level, so that the point lies between two points of the ring (`mem_convexHull_of_insideRings`).
-/

set_option autoImplicit false

namespace LabelledMap

/-! ### Supporting lines -/

/-- The points where a concave function is positive, together with a convex set where it is not
negative, form a convex set. -/
theorem convex_pos_union {value : Point ℝ → ℝ} (hvalue : ConcaveOn ℝ Set.univ value)
    {level : Set (Point ℝ)} (hlevel : Convex ℝ level) (hnonneg : ∀ point ∈ level, 0 ≤ value point) :
    Convex ℝ ({point | 0 < value point} ∪ level) := by
  rw [convex_iff_forall_pos]
  intro first hfirst second hsecond a b ha hb hab
  have hbetween := hvalue.2 (Set.mem_univ first) (Set.mem_univ second) ha.le hb.le hab
  simp only [smul_eq_mul] at hbetween
  rcases hfirst with hfirst | hfirst
  · have hsecondNonneg : 0 ≤ value second := by
      rcases hsecond with hsecond | hsecond
      · exact le_of_lt hsecond
      · exact hnonneg second hsecond
    have hpos : 0 < a * value first + b * value second :=
      add_pos_of_pos_of_nonneg (mul_pos ha hfirst) (mul_nonneg hb.le hsecondNonneg)
    exact Or.inl (hpos.trans_le hbetween)
  · rcases hsecond with hsecond | hsecond
    · have hpos : 0 < a * value first + b * value second :=
        add_pos_of_nonneg_of_pos (mul_nonneg ha.le (hnonneg first hfirst)) (mul_pos hb hsecond)
      exact Or.inl (hpos.trans_le hbetween)
    · exact Or.inr (hlevel hfirst hsecond ha.le hb.le hab)

/-- A point of a hull on a line that supports the hull lies between vertices on that line. -/
theorem mem_convexHull_of_nonpos {value : Point ℝ → ℝ} (hvalue : ConcaveOn ℝ Set.univ value)
    {vertices : Set (Point ℝ)} (hsupport : ∀ vertex ∈ vertices, 0 ≤ value vertex) {point : Point ℝ}
    (hpoint : point ∈ convexHull ℝ vertices) (hnonpos : value point ≤ 0) :
    point ∈ convexHull ℝ {vertex | vertex ∈ vertices ∧ value vertex = 0} := by
  have hnonneg : ∀ other ∈ convexHull ℝ {vertex | vertex ∈ vertices ∧ value vertex = 0},
      0 ≤ value other := by
    intro other hother
    obtain ⟨vertex, ⟨-, hzero⟩, hle⟩ :=
      hvalue.exists_le_of_mem_convexHull (Set.subset_univ _) hother
    exact hzero ▸ hle
  have hunion : point ∈ {other | 0 < value other} ∪
      convexHull ℝ {vertex | vertex ∈ vertices ∧ value vertex = 0} := by
    refine convexHull_min ?_ (convex_pos_union hvalue (convex_convexHull ℝ _) hnonneg) hpoint
    intro vertex hvertex
    rcases (hsupport vertex hvertex).lt_or_eq with hpos | hzero
    · exact Or.inl hpos
    · exact Or.inr (subset_convexHull ℝ _ ⟨hvertex, hzero.symm⟩)
  exact hunion.resolve_left (not_lt.mpr hnonpos)

theorem concaveOn_lineSide (turn : ℝ) (start stop : Point ℝ) :
    ConcaveOn ℝ Set.univ fun point ↦ turn * lineSide start stop point := by
  refine ⟨convex_univ, fun first _ second _ a b _ _ hab ↦ le_of_eq ?_⟩
  simp only [lineSide, smul_eq_mul, Point.add_x, Point.add_y, Point.smul_x, Point.smul_y]
  rw [← eq_sub_iff_add_eq'] at hab
  rw [hab]
  ring

/-! ### Strictly convex rings -/

/-- For every side of a ring, all other vertices lie strictly on one side of its line: on the
positive one for a positive `turn`, on the negative one for a negative `turn`. -/
def TurnsStrictly (turn : ℝ) (ring : List (Point ℝ)) : Prop :=
  ∀ start stop rest, (start :: stop :: rest) ~r ring →
    ∀ vertex ∈ rest, 0 < turn * lineSide start stop vertex

/-- For every side of a ring, all other vertices lie strictly on one side of its line, the same one
for all sides. -/
structure StrictlyConvex (ring : List (Point ℝ)) : Prop where
  three_le : 3 ≤ ring.length
  turns : ∃ turn, (turn = 1 ∨ turn = -1) ∧ TurnsStrictly turn ring

/-- A point lies strictly on one side of the line of every side of a ring. -/
def StrictlyWithin (turn : ℝ) (ring : List (Point ℝ)) (point : Point ℝ) : Prop :=
  ∀ start stop rest, (start :: stop :: rest) ~r ring → 0 < turn * lineSide start stop point

section Inside

variable {turn : ℝ} {ring : List (Point ℝ)} {point : Point ℝ}

/-- A point of a convex polygon lies on a side or strictly on the side of its line that the other
vertices lie on. -/
theorem TurnsStrictly.pos_or_mem_segment (hturns : TurnsStrictly turn ring)
    (hpoint : point ∈ convexHull ℝ {vertex | vertex ∈ ring}) {start stop : Point ℝ}
    {rest : List (Point ℝ)} (hrotated : (start :: stop :: rest) ~r ring) :
    0 < turn * lineSide start stop point ∨ point ∈ segment ℝ start stop := by
  refine or_iff_not_imp_left.mpr fun hnonpos ↦ ?_
  have hends : turn * lineSide start stop start = 0 ∧ turn * lineSide start stop stop = 0 := by
    constructor <;> (unfold lineSide; ring)
  have hvertex : ∀ vertex ∈ ring,
      vertex = start ∨ vertex = stop ∨ 0 < turn * lineSide start stop vertex := by
    intro vertex hvertex
    rcases List.mem_cons.mp (hrotated.mem_iff.mpr hvertex) with hstart | hlater
    · exact Or.inl hstart
    · exact Or.inr ((List.mem_cons.mp hlater).imp_right (hturns start stop rest hrotated vertex))
  have hsupport : ∀ vertex ∈ {vertex | vertex ∈ ring}, 0 ≤ turn * lineSide start stop vertex := by
    intro vertex hmem
    rcases hvertex vertex hmem with rfl | rfl | hpos
    · exact hends.1.ge
    · exact hends.2.ge
    · exact hpos.le
  have hface := mem_convexHull_of_nonpos (concaveOn_lineSide turn start stop) hsupport hpoint
    (not_lt.mp hnonpos)
  rw [← convexHull_pair]
  refine convexHull_mono ?_ hface
  rintro vertex ⟨hmem, hzero⟩
  rcases hvertex vertex hmem with rfl | rfl | hpos
  · exact Set.mem_insert _ _
  · exact Set.mem_insert_of_mem _ rfl
  · exact absurd hzero hpos.ne'

/-- Not all vertices of a polygon lie below a point of it. -/
theorem exists_vertex_not_below (hpoint : point ∈ convexHull ℝ {vertex | vertex ∈ ring}) :
    ∃ vertex ∈ ring, vertex.y ≤ point.y := by
  obtain ⟨vertex, hvertex, hle⟩ := (concaveOn_lineSide 1 point
    (point + ⟨1, 0⟩)).exists_le_of_mem_convexHull (Set.subset_univ _) hpoint
  simp only [lineSide, Point.add_x, Point.add_y] at hle
  exact ⟨vertex, hvertex, by linarith⟩

namespace StrictlyWithin

/-- Some vertex of a polygon lies below a point that is strictly within all its sides. -/
theorem exists_vertex_below (hwithin : StrictlyWithin turn ring point) (hlength : 2 ≤ ring.length)
    (hpoint : point ∈ convexHull ℝ {vertex | vertex ∈ ring}) :
    ∃ vertex ∈ ring, point.y < vertex.y := by
  by_contra! habove
  have hrise : ∀ other, -1 * lineSide point (point + ⟨1, 0⟩) other = point.y - other.y := by
    intro other
    simp only [lineSide, Point.add_x, Point.add_y]
    ring
  -- With nothing below it, the point lies between vertices that are level with it.
  have hface := mem_convexHull_of_nonpos (concaveOn_lineSide (-1) point (point + ⟨1, 0⟩))
    (fun vertex hvertex ↦ (hrise vertex).symm ▸ sub_nonneg.mpr (habove vertex hvertex)) hpoint
    (by rw [hrise, sub_self])
  obtain ⟨vertex, ⟨hvertex, hheight⟩, hahead⟩ := (concaveOn_lineSide turn point
    (point + ⟨0, 1⟩)).exists_le_of_mem_convexHull (Set.subset_univ _) hface
  rw [hrise, sub_eq_zero] at hheight
  -- The side that follows one of these vertices has the point on its line or beyond.
  obtain ⟨rest, hrotated⟩ := exists_isRotated_of_mem hvertex
  cases rest with
  | nil => exact absurd hrotated.perm.length_eq (by simp; omega)
  | cons next rest =>
    have hpos := hwithin vertex next rest hrotated
    have hnext : 0 ≤ point.y - next.y :=
      sub_nonneg.mpr (habove next (hrotated.mem_iff.mp (by simp)))
    have hbeyond : turn * lineSide vertex next point =
        (point.y - next.y) * (turn * lineSide point (point + ⟨0, 1⟩) vertex) := by
      simp only [lineSide, Point.add_x, Point.add_y, hheight]
      ring
    have hself : turn * lineSide point (point + ⟨0, 1⟩) point = 0 := by
      unfold lineSide
      ring
    rw [hself] at hahead
    rw [hbeyond] at hpos
    exact absurd hpos (mul_nonpos_of_nonneg_of_nonpos hnext hahead).not_gt

/-- Some side of a polygon descends past the level of a point that is strictly within all sides. -/
theorem exists_descends (hwithin : StrictlyWithin turn ring point) (hlength : 2 ≤ ring.length)
    (hpoint : point ∈ convexHull ℝ {vertex | vertex ∈ ring}) :
    ∃ start stop rest, (start :: stop :: rest) ~r ring ∧ descends point (start, stop) = true := by
  obtain ⟨first, hfirst, habove⟩ := exists_vertex_not_below hpoint
  obtain ⟨vertex, hvertex, hbelow⟩ := hwithin.exists_vertex_below hlength hpoint
  obtain ⟨rest, hrotated⟩ := exists_isRotated_of_mem hfirst
  have hrest : vertex ∈ rest := by
    refine (List.mem_cons.mp (hrotated.mem_iff.mpr hvertex)).resolve_left ?_
    rintro rfl
    exact absurd hbelow habove.not_gt
  obtain ⟨side, hside, hdescends⟩ := exists_descends_of_mem habove hrest hbelow
  obtain ⟨others, hothers⟩ := exists_isRotated_of_mem_segments hside
  exact ⟨side.1, side.2, others, hothers.trans hrotated, hdescends⟩

end StrictlyWithin

/-- Only one side of a convex ring descends past the level of a point. -/
theorem TurnsStrictly.not_descends (hturns : TurnsStrictly turn ring) {start stop : Point ℝ}
    {rest : List (Point ℝ)} (hrotated : (start :: stop :: rest) ~r ring)
    (hdescends : descends point (start, stop) = true) {side : Point ℝ × Point ℝ}
    (hside : side ∈ segments (stop :: rest)) : descends point side = false := by
  rw [Bool.eq_false_iff]
  intro hagain
  obtain ⟨hstart, hstop⟩ := descends_eq_true_iff.mp hdescends
  obtain ⟨hfirst, hsecond⟩ := descends_eq_true_iff.mp hagain
  obtain ⟨before, after, hsplit⟩ := exists_split_of_mem_segments hside
  cases before with
  | nil =>
    obtain ⟨rfl, -⟩ := List.cons.inj hsplit
    exact absurd hstop hfirst.not_gt
  | cons vertex before =>
    obtain ⟨rfl, rfl⟩ := List.cons.inj hsplit
    have hother : (side.1 :: side.2 :: (after ++ start :: stop :: before)) ~r ring := by
      refine List.IsRotated.trans ?_ hrotated
      exact List.isRotated_append (l := side.1 :: side.2 :: after)
    -- Each side has the ends of the other one strictly on one side, so they cannot share a level.
    have hfirstEnd := hturns start stop _ hrotated side.1 (by simp)
    have hsecondEnd := hturns start stop _ hrotated side.2 (by simp)
    have hstartEnd := hturns side.1 side.2 _ hother start (by simp)
    have hstopEnd := hturns side.1 side.2 _ hother stop (by simp)
    have hbalance : (side.2.y - point.y) * (turn * lineSide start stop side.1) +
        (point.y - side.1.y) * (turn * lineSide start stop side.2) +
          (stop.y - point.y) * (turn * lineSide side.1 side.2 start) +
            (point.y - start.y) * (turn * lineSide side.1 side.2 stop) = 0 := by
      unfold lineSide
      ring
    linarith [mul_pos (sub_pos.mpr hsecond) hfirstEnd,
      mul_nonneg (sub_nonneg.mpr hfirst) hsecondEnd.le, mul_pos (sub_pos.mpr hstop) hstartEnd,
      mul_nonneg (sub_nonneg.mpr hstart) hstopEnd.le]

/-- A convex ring descends once past the level of a point strictly within it. -/
theorem TurnsStrictly.countP_descends (hturns : TurnsStrictly turn ring)
    (hwithin : StrictlyWithin turn ring point) (hlength : 2 ≤ ring.length)
    (hpoint : point ∈ convexHull ℝ {vertex | vertex ∈ ring}) :
    (ringSides ring).countP (descends point ∘ Prod.swap) = 1 := by
  obtain ⟨start, stop, rest, hrotated, hdescends⟩ := hwithin.exists_descends hlength hpoint
  have hrest : (segments (stop :: rest)).countP (descends point) = 0 :=
    List.countP_eq_zero.mpr fun side hside ↦
      Bool.eq_false_iff.mp (hturns.not_descends hrotated hdescends hside)
  have hclosing : (descends point ∘ Prod.swap) (start, (stop :: rest).getLastD start) = false :=
    Bool.eq_false_iff.mpr fun hagain ↦
      (descends_eq_true_iff.mp hagain).2.not_ge (descends_eq_true_iff.mp hdescends).1
  have hsegments : segments (start :: stop :: rest) = (start, stop) :: segments (stop :: rest) :=
    rfl
  rw [← (ringSides_perm hrotated).countP_eq, ringSides_cons, List.countP_cons, hclosing,
    List.countP_map, descends_swap_swap, hsegments, List.countP_cons, hrest, hdescends]
  rfl

/-- The ray of a point strictly within a convex ring meets one of its sides. -/
theorem TurnsStrictly.countP_rayCrosses (hturns : TurnsStrictly turn ring)
    (hturn : turn = 1 ∨ turn = -1) (hwithin : StrictlyWithin turn ring point)
    (hlength : 2 ≤ ring.length) (hpoint : point ∈ convexHull ℝ {vertex | vertex ∈ ring}) :
    (ringSides ring).countP (rayCrosses point) = 1 := by
  have hsides : ∀ side ∈ ringSides ring, 0 < turn * lineSide side.2 side.1 point := by
    intro side hside
    obtain ⟨rest, hrotated⟩ := exists_isRotated_of_mem_ringSides hlength hside
    exact hwithin _ _ _ hrotated
  rw [← hturns.countP_descends hwithin hlength hpoint]
  rcases hturn with rfl | rfl
  · refine List.countP_congr fun side hside ↦ ?_
    have hpos : 0 < lineSide side.2 side.1 point := by simpa using hsides side hside
    rw [← rayCrosses_swap, rayCrosses_eq_descends hpos]
    rfl
  · rw [← countP_descends_ringSides]
    refine List.countP_congr fun side hside ↦ ?_
    have hpos : 0 < lineSide side.1 side.2 point := by
      simpa [lineSide_swap side.1] using hsides side hside
    rw [rayCrosses_eq_descends hpos]

end Inside

/-! ### Points outside -/

theorem segment_subset_of_mem_ringSides {ring : List (Point ℝ)} (hlength : 2 ≤ ring.length)
    {side : Point ℝ × Point ℝ} (hside : side ∈ ringSides ring) :
    segment ℝ side.1 side.2 ⊆ convexHull ℝ {vertex | vertex ∈ ring} := by
  obtain ⟨rest, hrotated⟩ := exists_isRotated_of_mem_ringSides hlength hside
  exact segment_subset_convexHull (hrotated.mem_iff.mp (by simp)) (hrotated.mem_iff.mp (by simp))

/-- What the rays of a ring call inside lies between two points of its sides. -/
theorem mem_convexHull_of_insideRings {ring : List (Point ℝ)} {point : Point ℝ}
    (hinside : insideRings [ring] point = true) :
    point ∈ convexHull ℝ {vertex | vertex ∈ ring} := by
  obtain ⟨hlength, hodd⟩ := (insideRings_singleton ring point).mp hinside
  have hlevel : ∀ side ∈ ringSides ring, passesLevel point side = true →
      ∃ level ∈ convexHull ℝ {vertex | vertex ∈ ring}, level.y = point.y ∧
        (rayCrosses point side = true ↔ point.x < level.x) := by
    intro side hside hpasses
    obtain ⟨level, hlevel, hlevels⟩ := exists_level_of_passesLevel hpasses
    exact ⟨level, segment_subset_of_mem_ringSides (by omega) hside hlevel, hlevels⟩
  obtain ⟨right, hright, hmeets⟩ : ∃ side ∈ ringSides ring, rayCrosses point side = true :=
    List.countP_pos_iff.mp hodd.pos
  -- An even number of sides pass the level, so not all of them meet the ray.
  obtain ⟨left, hleft, hpasses, hmisses⟩ : ∃ side ∈ ringSides ring,
      passesLevel point side = true ∧ ¬ rayCrosses point side = true := by
    by_contra! hall
    have hcount : (ringSides ring).countP (rayCrosses point) =
        (ringSides ring).countP (passesLevel point) :=
      List.countP_congr fun side hside ↦ ⟨passesLevel_of_rayCrosses, hall side hside⟩
    exact Nat.not_even_iff_odd.mpr (hcount ▸ hodd) (even_countP_passesLevel point ring)
  obtain ⟨beyond, hbeyond, hbeyondLevel, hahead⟩ :=
    hlevel right hright (passesLevel_of_rayCrosses hmeets)
  obtain ⟨behind, hbehind, hbehindLevel, hnotAhead⟩ := hlevel left hleft hpasses
  have hlt : point.x < beyond.x := hahead.mp hmeets
  have hle : behind.x ≤ point.x := not_lt.mp (hnotAhead.not.mp hmisses)
  have hwidth : 0 < beyond.x - behind.x := by linarith
  refine (convex_convexHull ℝ _).segment_subset hbehind hbeyond ?_
  rw [segment_eq_image']
  refine ⟨(point.x - behind.x) / (beyond.x - behind.x), ⟨div_nonneg (by linarith) hwidth.le,
    (div_le_one hwidth).mpr (by linarith)⟩, Point.ext ?_ ?_⟩
  · change behind.x + (point.x - behind.x) / (beyond.x - behind.x) * (beyond.x - behind.x) = point.x
    rw [div_mul_cancel₀ _ hwidth.ne', add_sub_cancel]
  · change behind.y + _ * (beyond.y - behind.y) = point.y
    rw [hbeyondLevel, hbehindLevel, sub_self, mul_zero, add_zero]

/-! ### Targets -/

/-- A closed path of one ring is hit inside the ring and near its sides. -/
theorem Target.contains_ring_iff {id : FeatureId} {ring : List (Point ℝ)} {weight tolerance : ℝ}
    {point : Point ℝ} :
    (⟨id, .path [ring] true, weight⟩ : Target ℝ).contains point tolerance = true ↔
      insideRings [ring] point = true ∨ ∃ side ∈ ringSides ring,
        ∃ near ∈ segment ℝ side.1 side.2, point.distanceTo near ≤ weight / 2 + tolerance := by
  rw [← nearPart_closed_iff]
  simp only [contains, nearStroke, Bool.true_and, List.any_cons, List.any_nil, Bool.or_false,
    Bool.or_eq_true, Exact.numeral_eq]

/-- A closed path with one strictly convex ring is hit by every point of its polygon, inside, on the
sides and at the vertices, and by no point that is further from all of these than half the weight of
its stroke and the tolerance. -/
theorem Target.contains_convex (id : FeatureId) {ring : List (Point ℝ)}
    (hring : StrictlyConvex ring) {weight tolerance : ℝ} (hweight : 0 ≤ weight)
    (htolerance : 0 ≤ tolerance) (point : Point ℝ) :
    let target : Target ℝ := ⟨id, .path [ring] true, weight⟩
    let polygon := convexHull ℝ {vertex | vertex ∈ ring}
    (point ∈ polygon → target.contains point tolerance = true) ∧
      ((∀ other ∈ polygon, weight / 2 + tolerance < point.distanceTo other) →
        target.contains point tolerance = false) := by
  intro target polygon
  have hlength := hring.three_le
  have hreach : 0 ≤ weight / 2 + tolerance := by positivity
  constructor
  · intro hpoint
    rw [contains_ring_iff]
    obtain ⟨turn, hturn, hturns⟩ := hring.turns
    by_cases hside : ∃ start stop rest, (start :: stop :: rest) ~r ring ∧
        point ∈ segment ℝ start stop
    · obtain ⟨start, stop, rest, hrotated, hmem⟩ := hside
      refine Or.inr ⟨(stop, start), mem_ringSides_of_isRotated hrotated, point,
        segment_symm ℝ start stop ▸ hmem, ?_⟩
      rw [Point.distanceTo_self]
      exact hreach
    · have hwithin : StrictlyWithin turn ring point := fun start stop rest hrotated ↦
        (hturns.pos_or_mem_segment hpoint hrotated).resolve_right
          fun hmem ↦ hside ⟨start, stop, rest, hrotated, hmem⟩
      have hcount := hturns.countP_rayCrosses hturn hwithin (by omega) hpoint
      exact Or.inl ((insideRings_singleton ring point).mpr ⟨hlength, hcount ▸ odd_one⟩)
  · intro hfar
    rw [Bool.eq_false_iff, ne_eq, contains_ring_iff]
    rintro (hinside | ⟨side, hside, near, hnear, hdistance⟩)
    · have hself := hfar point (mem_convexHull_of_insideRings hinside)
      rw [Point.distanceTo_self] at hself
      exact hself.not_ge hreach
    · have hpolygon := segment_subset_of_mem_ringSides (by omega) hside hnear
      exact (hfar near hpolygon).not_ge hdistance

/-- A square on one of its corners. The ray from its centre goes through a corner, and so does a ray
from the left of it, which goes through two. -/
theorem Target.contains_convex_diamond :
    let ring : List (Point ℝ) := [⟨0, -4⟩, ⟨4, 0⟩, ⟨0, 4⟩, ⟨-4, 0⟩]
    let target : Target ℝ := ⟨1, .path [ring] true, 2⟩
    StrictlyConvex ring ∧ target.contains ⟨0, 0⟩ 1 = true ∧ target.contains ⟨-10, 0⟩ 1 = false := by
  intro ring target
  have hring : StrictlyConvex ring := by
    refine ⟨by decide, 1, Or.inl rfl, fun start stop rest hrotated ↦ ?_⟩
    rw [← List.mem_cyclicPermutations_iff] at hrotated
    have hcases : ((start = ⟨0, -4⟩ ∧ stop = ⟨4, 0⟩ ∧ rest = [⟨0, 4⟩, ⟨-4, 0⟩]) ∨
        (start = ⟨4, 0⟩ ∧ stop = ⟨0, 4⟩ ∧ rest = [⟨-4, 0⟩, ⟨0, -4⟩])) ∨
          (start = ⟨0, 4⟩ ∧ stop = ⟨-4, 0⟩ ∧ rest = [⟨0, -4⟩, ⟨4, 0⟩]) ∨
            (start = ⟨-4, 0⟩ ∧ stop = ⟨0, -4⟩ ∧ rest = [⟨4, 0⟩, ⟨0, 4⟩]) := by
      simpa [ring, List.cyclicPermutations, or_assoc] using hrotated
    rcases hcases with (⟨rfl, rfl, rfl⟩ | ⟨rfl, rfl, rfl⟩) | ⟨rfl, rfl, rfl⟩ | ⟨rfl, rfl, rfl⟩
    all_goals norm_num [lineSide]
  have hconvex := contains_convex 1 hring (show (0 : ℝ) ≤ 2 by norm_num)
    (show (0 : ℝ) ≤ 1 by norm_num)
  refine ⟨hring, (hconvex ⟨0, 0⟩).1 ?_, (hconvex ⟨-10, 0⟩).2 fun other hother ↦ ?_⟩
  · refine segment_subset_convexHull (x := (⟨4, 0⟩ : Point ℝ)) (y := ⟨-4, 0⟩) (by simp [ring])
      (by simp [ring]) ⟨1 / 2, 1 / 2, by norm_num, by norm_num, by norm_num, Point.ext ?_ ?_⟩
    · simp
    · simp
  · obtain ⟨vertex, hvertex, hle⟩ := (concaveOn_lineSide (-1) ⟨0, 0⟩
      ⟨0, 1⟩).exists_le_of_mem_convexHull (Set.subset_univ _) hother
    have hleft : ∀ corner ∈ ring, -4 ≤ corner.x := by norm_num [ring]
    have hright : -4 ≤ other.x := by
      simp only [lineSide] at hle
      linarith [hleft vertex hvertex]
    by_contra hnear
    obtain ⟨-, hsquares⟩ := Point.distanceTo_le_iff.mp (not_lt.mp hnear)
    dsimp only at hsquares
    nlinarith [sq_nonneg (other.y - 0)]

end LabelledMap
