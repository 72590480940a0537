import LabelledMap.Feature.Hit
import LabelledMap.Proofs.Feature.Segments
import LabelledMap.Proofs.Plane.Vector
import Mathlib.Data.List.Rotate

/-!
# Rays and rings

Where a ray meets the sides of a ring, in exact arithmetic. A side that passes the level of a point
descends in one of its two directions, and the ray to the right meets it if the point lies on the
matching side of its line (`rayCrosses_eq_true_iff`), so the direction of a side does not matter
(`rayCrosses_swap`). Neither does the vertex that a ring begins with (`ringSides_perm`).

Going round a ring one descends past a level as often as one climbs past it
(`countP_descends_ringSides`), so that an even number of sides pass the level
(`even_countP_passesLevel`). Each of them has a point on the level, and the ray meets those whose
point lies to the right (`exists_level_of_passesLevel`).
-/

set_option autoImplicit false

namespace LabelledMap

/-- On which side of the line through two points a point lies: positive on one side, negative on the
other and zero on the line. -/
def lineSide (start stop point : Point ℝ) : ℝ :=
  (stop.x - start.x) * (point.y - start.y) - (stop.y - start.y) * (point.x - start.x)

theorem lineSide_swap (start stop point : Point ℝ) :
    lineSide stop start point = -lineSide start stop point := by
  unfold lineSide
  ring

/-- Whether one descends past the level of a point from the start of a side to its end. -/
noncomputable def descends (point : Point ℝ) (side : Point ℝ × Point ℝ) : Bool :=
  !decide (point.y < side.1.y) && decide (point.y < side.2.y)

theorem descends_eq_true_iff {point : Point ℝ} {side : Point ℝ × Point ℝ} :
    descends point side = true ↔ side.1.y ≤ point.y ∧ point.y < side.2.y := by
  simp [descends]

/-- A ray meets a side that passes its level, with the point on the matching side of its line. -/
theorem rayCrosses_eq_true_iff {point : Point ℝ} {side : Point ℝ × Point ℝ} :
    rayCrosses point side = true ↔
      descends point side = true ∧ 0 < lineSide side.1 side.2 point ∨
        descends point side.swap = true ∧ 0 < lineSide side.2 side.1 point := by
  obtain ⟨start, stop⟩ := side
  simp only [rayCrosses, descends_eq_true_iff, Bool.and_eq_true, bne_iff_ne, ne_eq,
    decide_eq_decide, decide_eq_true_eq, Prod.swap, ← sub_lt_iff_lt_add]
  rcases lt_or_ge point.y start.y with hstart | hstart
  · rcases lt_or_ge point.y stop.y with hstop | hstop
    · simp [hstart, hstop, hstart.not_ge, hstop.not_ge]
    · have hheight : stop.y - start.y < 0 := by linarith
      rw [lt_div_iff_of_neg hheight]
      simp only [hstart, hstop, hstart.not_ge, hstop.not_gt, lineSide, true_iff, not_false_eq_true,
        true_and, false_and, and_false, and_true, false_or]
      constructor <;> intro hlt <;> linarith
  · rcases lt_or_ge point.y stop.y with hstop | hstop
    · have hheight : 0 < stop.y - start.y := by linarith
      rw [lt_div_iff₀ hheight]
      simp only [hstart, hstop, hstart.not_gt, hstop.not_ge, lineSide, false_iff, not_true_eq_false,
        not_false_eq_true, true_and, false_and, and_false, and_true, or_false]
      constructor <;> intro hlt <;> linarith
    · simp [hstart, hstop, hstart.not_gt, hstop.not_gt]

/-- A ray meets a side in whichever direction this is taken. -/
theorem rayCrosses_swap (point : Point ℝ) (side : Point ℝ × Point ℝ) :
    rayCrosses point side.swap = rayCrosses point side := by
  rw [Bool.eq_iff_iff, rayCrosses_eq_true_iff, rayCrosses_eq_true_iff, Prod.swap_swap]
  exact or_comm

/-- A ray meets a side that has the point on its positive side if this descends. -/
theorem rayCrosses_eq_descends {point : Point ℝ} {side : Point ℝ × Point ℝ}
    (hside : 0 < lineSide side.1 side.2 point) : rayCrosses point side = descends point side := by
  have hback : ¬ 0 < lineSide side.2 side.1 point := by
    rw [lineSide_swap]
    linarith
  rw [Bool.eq_iff_iff, rayCrosses_eq_true_iff]
  simp only [hside, hback, and_true, and_false, or_false]

/-! ### The sides of a ring -/

theorem ringSides_eq_zip_rotate (ring : List (Point ℝ)) :
    ringSides ring = ring.zip (ring.rotate (ring.length - 1)) := by
  rcases List.eq_nil_or_concat' ring with rfl | ⟨init, last, rfl⟩
  · rfl
  · have hrotate : (init ++ [last]).rotate ((init ++ [last]).length - 1) = last :: init := by
      rw [List.length_append, List.length_singleton, Nat.add_sub_cancel,
        List.rotate_append_length_eq, List.singleton_append]
    have hsides : ringSides (init ++ [last]) = (init ++ [last]).zip (last :: init ++ [last]) := by
      unfold ringSides
      rw [List.getLast?_append, List.getLast?_singleton]
      rfl
    have hzip : (init ++ [last] ++ []).zip (last :: init ++ [last]) =
        (init ++ [last]).zip (last :: init) ++ [].zip [last] := List.zip_append (by simp)
    rw [hrotate, hsides]
    simpa using hzip

/-- The first side closes the ring, the others are the segments in the opposite direction. -/
theorem ringSides_cons (first : Point ℝ) (rest : List (Point ℝ)) :
    ringSides (first :: rest) =
      (first, rest.getLastD first) :: (segments (first :: rest)).map Prod.swap := by
  unfold ringSides segments
  rw [List.getLast?_cons]
  simp only [List.zip_cons_cons, List.tail_cons, List.zip_swap, List.getLastD_eq_getLast?]

/-- Rings that differ in the vertex they begin with have the same sides. -/
theorem ringSides_perm {ring other : List (Point ℝ)} (hrotated : ring ~r other) :
    (ringSides ring).Perm (ringSides other) := by
  obtain ⟨turns, rfl⟩ := hrotated
  have hsides : ringSides (ring.rotate turns) = (ringSides ring).rotate turns := by
    rw [ringSides_eq_zip_rotate, ringSides_eq_zip_rotate, List.length_rotate, List.rotate_rotate,
      Nat.add_comm turns, ← List.rotate_rotate]
    exact (List.zipWith_rotate_distrib Prod.mk _ _ turns (List.length_rotate _ _).symm).symm
  rw [hsides]
  exact (List.rotate_perm _ _).symm

/-- A ring can begin with any of its vertices. -/
theorem exists_isRotated_of_mem {ring : List (Point ℝ)} {vertex : Point ℝ}
    (hvertex : vertex ∈ ring) : ∃ rest, (vertex :: rest) ~r ring := by
  obtain ⟨before, after, rfl⟩ := List.append_of_mem hvertex
  exact ⟨after ++ before, List.isRotated_append (l := vertex :: after)⟩

/-- A ring can begin with any segment of the path it closes. -/
theorem exists_isRotated_of_mem_segments {ring : List (Point ℝ)} {side : Point ℝ × Point ℝ}
    (hside : side ∈ segments ring) : ∃ rest, (side.1 :: side.2 :: rest) ~r ring := by
  obtain ⟨before, after, rfl⟩ := exists_split_of_mem_segments hside
  exact ⟨after ++ before, List.isRotated_append (l := side.1 :: side.2 :: after)⟩

/-- A ring can begin with any of its sides, taken in its direction. -/
theorem exists_isRotated_of_mem_ringSides {ring : List (Point ℝ)} (htwo : 2 ≤ ring.length)
    {side : Point ℝ × Point ℝ} (hside : side ∈ ringSides ring) :
    ∃ rest, (side.2 :: side.1 :: rest) ~r ring := by
  cases ring with
  | nil => exact absurd htwo (by decide)
  | cons first rest =>
    rw [ringSides_cons] at hside
    rcases List.mem_cons.mp hside with rfl | hsegment
    · obtain rfl | ⟨init, last, rfl⟩ := List.eq_nil_or_concat' rest
      · exact absurd htwo (by simp)
      · refine ⟨init, ?_⟩
        rw [List.getLastD_concat]
        exact List.isRotated_append (l := [last])
    · obtain ⟨segment, hmem, rfl⟩ := List.mem_map.mp hsegment
      exact exists_isRotated_of_mem_segments hmem

/-- Wherever a ring begins, the way from the first vertex to the second is one of its sides. -/
theorem mem_ringSides_of_isRotated {ring : List (Point ℝ)} {start stop : Point ℝ}
    {rest : List (Point ℝ)} (hrotated : (start :: stop :: rest) ~r ring) :
    (stop, start) ∈ ringSides ring := by
  rw [← (ringSides_perm hrotated).mem_iff, ringSides_cons]
  exact List.mem_cons_of_mem _ (List.mem_map.mpr ⟨(start, stop), List.mem_cons_self, rfl⟩)

/-! ### Levels -/

theorem descends_swap_swap (point : Point ℝ) :
    (descends point ∘ Prod.swap) ∘ Prod.swap = descends point := by
  rw [Function.comp_assoc, Prod.swap_swap_eq, Function.comp_id]

/-- A side descends past a level if it ends below it and does not begin there. -/
theorem descends_add (point start stop : Point ℝ) :
    (if descends point (start, stop) = true then 1 else 0) + (decide (point.y < start.y)).toNat =
      (if (descends point ∘ Prod.swap) (start, stop) = true then 1 else 0) +
        (decide (point.y < stop.y)).toNat := by
  rcases lt_or_ge point.y start.y with hstart | hstart <;>
    rcases lt_or_ge point.y stop.y with hstop | hstop <;>
      simp [descends, hstart, hstop, hstart.not_gt, hstop.not_gt]

/-- Along a path one descends past a level as often as one climbs past it, but for where the path
begins and ends. -/
theorem countP_descends_segments (point first : Point ℝ) (rest : List (Point ℝ)) :
    (segments (first :: rest)).countP (descends point) + (decide (point.y < first.y)).toNat =
      (segments (first :: rest)).countP (descends point ∘ Prod.swap) +
        (decide (point.y < (rest.getLastD first).y)).toNat := by
  induction rest generalizing first with
  | nil => rfl
  | cons second rest ih =>
    have hfirst := descends_add point first second
    have hlater := ih second
    rw [segments_cons_cons, List.getLastD_cons, List.countP_cons, List.countP_cons]
    omega

/-- A path from above a level to below it has a segment that descends past the level. -/
theorem exists_descends_of_mem {point first : Point ℝ} {rest : List (Point ℝ)}
    (habove : first.y ≤ point.y) {vertex : Point ℝ} (hvertex : vertex ∈ rest)
    (hbelow : point.y < vertex.y) :
    ∃ side ∈ segments (first :: rest), descends point side = true := by
  induction rest generalizing first with
  | nil => exact absurd hvertex List.not_mem_nil
  | cons second rest ih =>
    rcases lt_or_ge point.y second.y with hsecond | hsecond
    · exact ⟨(first, second), List.mem_cons_self, descends_eq_true_iff.mpr ⟨habove, hsecond⟩⟩
    · have hlater : vertex ∈ rest := by
        rcases List.mem_cons.mp hvertex with rfl | hlater
        · exact absurd hbelow hsecond.not_gt
        · exact hlater
      obtain ⟨side, hside, hdescends⟩ := ih hsecond hlater
      exact ⟨side, List.mem_cons_of_mem _ hside, hdescends⟩

/-- Round a ring one descends past a level as often as one climbs past it. -/
theorem countP_descends_ringSides (point : Point ℝ) (ring : List (Point ℝ)) :
    (ringSides ring).countP (descends point) =
      (ringSides ring).countP (descends point ∘ Prod.swap) := by
  cases ring with
  | nil => rfl
  | cons first rest =>
    have hpath := countP_descends_segments point first rest
    have hclosing := descends_add point first (rest.getLastD first)
    rw [ringSides_cons, List.countP_cons, List.countP_cons, List.countP_map, List.countP_map,
      descends_swap_swap]
    omega

/-- A side that descends past a level does not climb past it. -/
theorem not_descends_swap {point : Point ℝ} {side : Point ℝ × Point ℝ}
    (hdescends : descends point side = true) : descends point side.swap = false := by
  rw [descends_eq_true_iff] at hdescends
  rw [Bool.eq_false_iff, ne_eq, descends_eq_true_iff]
  exact fun hclimbs ↦ absurd hdescends.2 hclimbs.1.not_gt

/-- Whether a side passes the level of a point, in one direction or in the other. -/
noncomputable def passesLevel (point : Point ℝ) (side : Point ℝ × Point ℝ) : Bool :=
  descends point side || descends point side.swap

theorem passesLevel_of_rayCrosses {point : Point ℝ} {side : Point ℝ × Point ℝ}
    (hcrosses : rayCrosses point side = true) : passesLevel point side = true := by
  unfold passesLevel
  rw [Bool.or_eq_true]
  exact (rayCrosses_eq_true_iff.mp hcrosses).imp And.left And.left

/-- A ring passes a level an even number of times. -/
theorem even_countP_passesLevel (point : Point ℝ) (ring : List (Point ℝ)) :
    Even ((ringSides ring).countP (passesLevel point)) := by
  have hsum : ∀ sides : List (Point ℝ × Point ℝ), sides.countP (passesLevel point) =
      sides.countP (descends point) + sides.countP (descends point ∘ Prod.swap) := by
    intro sides
    induction sides with
    | nil => rfl
    | cons side rest ih =>
      have hside : (if passesLevel point side = true then 1 else 0) =
          (if descends point side = true then 1 else 0) +
            (if (descends point ∘ Prod.swap) side = true then 1 else 0) := by
        unfold passesLevel Function.comp
        cases hdescends : descends point side with
        | false => simp
        | true => simp [not_descends_swap hdescends]
      rw [List.countP_cons, List.countP_cons, List.countP_cons, ih, hside]
      omega
  rw [hsum, ← countP_descends_ringSides]
  exact ⟨_, rfl⟩

/-- A side that descends past the level of a point has a point there, and the line through the side
has the matching side where this lies to the right. -/
theorem exists_level_of_descends {point start stop : Point ℝ}
    (hdescends : descends point (start, stop) = true) :
    ∃ level ∈ segment ℝ start stop, level.y = point.y ∧
      (0 < lineSide start stop point ↔ point.x < level.x) := by
  obtain ⟨hstart, hstop⟩ := descends_eq_true_iff.mp hdescends
  have hheight : 0 < stop.y - start.y := by linarith
  have hratio : (point.y - start.y) / (stop.y - start.y) * (stop.y - start.y) = point.y - start.y :=
    div_mul_cancel₀ _ hheight.ne'
  set ratio := (point.y - start.y) / (stop.y - start.y) with hdef
  have hbounds : ratio ∈ Set.Icc (0 : ℝ) 1 :=
    ⟨div_nonneg (by linarith) hheight.le, (div_le_one hheight).mpr (by linarith)⟩
  refine ⟨start + ratio • (stop - start), ?_, ?_, ?_⟩
  · rw [segment_eq_image']
    exact ⟨ratio, hbounds, rfl⟩
  · change start.y + ratio * (stop.y - start.y) = point.y
    linarith
  · change _ ↔ point.x < start.x + ratio * (stop.x - start.x)
    have hside : lineSide start stop point =
        (stop.y - start.y) * (start.x + ratio * (stop.x - start.x) - point.x) := by
      rw [lineSide, ← hratio]
      ring
    rw [hside, mul_pos_iff_of_pos_left hheight, sub_pos]

/-- A side that passes the level of a point has a point there, and the ray meets the side just if
this lies to the right. -/
theorem exists_level_of_passesLevel {point : Point ℝ} {side : Point ℝ × Point ℝ}
    (hpasses : passesLevel point side = true) :
    ∃ level ∈ segment ℝ side.1 side.2, level.y = point.y ∧
      (rayCrosses point side = true ↔ point.x < level.x) := by
  have hforward : ∀ {side : Point ℝ × Point ℝ}, descends point side = true →
      ∃ level ∈ segment ℝ side.1 side.2, level.y = point.y ∧
        (rayCrosses point side = true ↔ point.x < level.x) := by
    intro side hdescends
    obtain ⟨level, hlevel, hheight, hright⟩ := exists_level_of_descends hdescends
    refine ⟨level, hlevel, hheight, ?_⟩
    rw [rayCrosses_eq_true_iff, hdescends, not_descends_swap hdescends, ← hright]
    simp
  rcases Bool.or_eq_true_iff.mp hpasses with hdescends | hclimbs
  · exact hforward hdescends
  · obtain ⟨level, hlevel, hheight, hright⟩ := hforward hclimbs
    exact ⟨level, segment_symm ℝ side.2 side.1 ▸ hlevel, hheight,
      rayCrosses_swap point side ▸ hright⟩

/-- Whether a point is inside a single ring. -/
theorem insideRings_singleton (ring : List (Point ℝ)) (point : Point ℝ) :
    insideRings [ring] point = true ↔
      3 ≤ ring.length ∧ Odd ((ringSides ring).countP (rayCrosses point)) := by
  unfold insideRings
  by_cases hlength : 3 ≤ ring.length
  · simp [hlength, Nat.odd_iff]
  · simp [hlength]

end LabelledMap
