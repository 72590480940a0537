import LabelledMap.Proofs.Feature.Segments
import LabelledMap.Proofs.Plane.Vector

/-!
# The point halfway along a path

With exact arithmetic the anchor of a path lies halfway along it, for any distance between vertices
(`IsDistance`). `PassesAt` says of a point that a path passes it after a certain way. By recursion
on the path there is one such point for a way (`PassesAt.unique`), and vertices may be repeated
(`PassesAt.repeated`).

The walk along the segments stops within one of them (`StopsWithin`): it has gone no further than
its goal when it reaches the segment, so that this one has a length to divide by. The path passes
the point where the walk stops after the goal (`StopsWithin.passesAt`), and the reversed path after
the rest of the length (`StopsWithin.passesAt_reverse`), which is the same for half the length.
`halfwayPoint_halves` puts this together.
-/

set_option autoImplicit false

namespace LabelledMap

/-- A length between points that is the same in both directions and vanishes between equal points
only. -/
structure IsDistance (distance : Point ℝ → Point ℝ → ℝ) : Prop where
  symm : ∀ first second, distance first second = distance second first
  self : ∀ point, distance point point = 0
  pos : ∀ {first second}, first ≠ second → 0 < distance first second

theorem isDistance_distanceTo : IsDistance Point.distanceTo :=
  ⟨Point.distanceTo_comm, Point.distanceTo_self, Point.distanceTo_pos⟩

namespace IsDistance

variable {distance : Point ℝ → Point ℝ → ℝ}

theorem nonneg (hdistance : IsDistance distance) (first second : Point ℝ) :
    0 ≤ distance first second := by
  by_cases heq : first = second
  · exact heq ▸ (hdistance.self first).ge
  · exact (hdistance.pos heq).le

theorem eq_of_nonpos (hdistance : IsDistance distance) {first second : Point ℝ}
    (hnonpos : distance first second ≤ 0) : first = second := by
  by_contra hne
  exact absurd (hdistance.pos hne) (not_lt.mpr hnonpos)

end IsDistance

variable {distance : Point ℝ → Point ℝ → ℝ}

/-! ### The length of a path -/

@[simp] theorem pathLength_nil : pathLength distance [] = 0 := Exact.zero_eq

@[simp] theorem pathLength_singleton (vertex : Point ℝ) : pathLength distance [vertex] = 0 :=
  Exact.zero_eq

theorem pathLength_eq_sum (points : List (Point ℝ)) :
    pathLength distance points =
      ((segments points).map fun side ↦ distance side.1 side.2).sum := by
  rw [List.sum_eq_foldl, List.foldl_map]
  unfold pathLength
  rw [Exact.zero_eq]

/-- The first segment adds its length. -/
@[simp] theorem pathLength_cons_cons (start stop : Point ℝ) (rest : List (Point ℝ)) :
    pathLength distance (start :: stop :: rest) =
      distance start stop + pathLength distance (stop :: rest) := by
  rw [pathLength_eq_sum, pathLength_eq_sum]
  exact List.sum_cons

theorem pathLength_nonneg (hdistance : IsDistance distance) (points : List (Point ℝ)) :
    0 ≤ pathLength distance points := by
  rw [pathLength_eq_sum]
  refine List.sum_nonneg fun length hlength ↦ ?_
  obtain ⟨side, -, rfl⟩ := List.mem_map.mp hlength
  exact hdistance.nonneg side.1 side.2

/-- A path can be measured up to one of its vertices and on from there. -/
theorem pathLength_append_cons (before : List (Point ℝ)) (vertex : Point ℝ)
    (after : List (Point ℝ)) :
    pathLength distance (before ++ vertex :: after) =
      pathLength distance (before ++ [vertex]) + pathLength distance (vertex :: after) := by
  rw [pathLength_eq_sum, segments_append_cons, List.map_append, List.sum_append,
    ← pathLength_eq_sum, ← pathLength_eq_sum]

theorem pathLength_reverse (hdistance : IsDistance distance) (points : List (Point ℝ)) :
    pathLength distance points.reverse = pathLength distance points := by
  have hswap : (fun side : Point ℝ × Point ℝ ↦ distance side.1 side.2) ∘ Prod.swap =
      fun side ↦ distance side.1 side.2 := funext fun side ↦ hdistance.symm side.2 side.1
  rw [pathLength_eq_sum, pathLength_eq_sum, segments_reverse, List.map_reverse, List.sum_reverse,
    List.map_map, hswap]

/-- A vertex repeated next to itself adds nothing. -/
theorem pathLength_repeated (hdistance : IsDistance distance) (before : List (Point ℝ))
    (vertex : Point ℝ) (after : List (Point ℝ)) :
    pathLength distance (before ++ vertex :: vertex :: after) =
      pathLength distance (before ++ vertex :: after) := by
  rw [pathLength_append_cons, pathLength_cons_cons, hdistance.self, zero_add,
    ← pathLength_append_cons]

/-! ### Points on a path -/

/-- A path passes a point after a way: on its first segment, the point dividing it, or later. -/
def PassesAt (distance : Point ℝ → Point ℝ → ℝ) : List (Point ℝ) → ℝ → Point ℝ → Prop
  | start :: stop :: rest, way, point =>
    (∃ ratio, 0 ≤ ratio ∧ ratio ≤ 1 ∧ way = (1 - ratio) * distance start stop ∧
      point = stop - ratio • (stop - start)) ∨
        PassesAt distance (stop :: rest) (way - distance start stop) point
  | [_], _, _ | [], _, _ => False

namespace PassesAt

theorem nonneg (hdistance : IsDistance distance) {points : List (Point ℝ)} {way : ℝ}
    {point : Point ℝ} (hpasses : PassesAt distance points way point) : 0 ≤ way := by
  induction points generalizing way with
  | nil => exact hpasses.elim
  | cons start rest ih =>
    cases rest with
    | nil => exact hpasses.elim
    | cons stop rest =>
      have hlength := hdistance.nonneg start stop
      rcases hpasses with ⟨ratio, -, hone, rfl, -⟩ | hlater
      · exact mul_nonneg (by linarith) hlength
      · linarith [ih hlater]

/-- At its beginning a path passes its first vertex. -/
theorem eq_first (hdistance : IsDistance distance) {first : Point ℝ} {rest : List (Point ℝ)}
    {way : ℝ} {point : Point ℝ} (hpasses : PassesAt distance (first :: rest) way point)
    (hway : way ≤ 0) : point = first := by
  induction rest generalizing first way with
  | nil => exact hpasses.elim
  | cons stop rest ih =>
    have hlength := hdistance.nonneg first stop
    rcases hpasses with ⟨ratio, -, hone, rfl, rfl⟩ | hlater
    · by_cases heq : first = stop
      · rw [heq, sub_self, smul_zero, sub_zero]
      · have hratio : ratio = 1 := by
          have hpos := hdistance.pos heq
          nlinarith
        rw [hratio, one_smul, sub_sub_cancel]
    · have hfirst : first = stop :=
        hdistance.eq_of_nonpos (by linarith [hlater.nonneg hdistance])
      exact (ih hlater (by linarith)).trans hfirst.symm

/-- A point on the first segment and a point passed later, after the same way, are its end. -/
theorem eq_of_within_of_later (hdistance : IsDistance distance) {start stop : Point ℝ}
    {rest : List (Point ℝ)} {ratio : ℝ} {point : Point ℝ} (hzero : 0 ≤ ratio)
    (hlater : PassesAt distance (stop :: rest)
      ((1 - ratio) * distance start stop - distance start stop) point) :
    stop - ratio • (stop - start) = point := by
  have hlength := hdistance.nonneg start stop
  have hshort : (1 - ratio) * distance start stop - distance start stop ≤ 0 := by nlinarith
  have hway := hlater.nonneg hdistance
  have hpoint := hlater.eq_first hdistance hshort
  have hproduct : ratio • (stop - start) = 0 := by
    by_cases heq : start = stop
    · rw [heq, sub_self, smul_zero]
    · have hratio : ratio = 0 := by
        have hpos := hdistance.pos heq
        nlinarith
      rw [hratio, zero_smul]
  rw [hproduct, sub_zero, hpoint]

/-- A path passes one point after a way. -/
theorem unique (hdistance : IsDistance distance) {points : List (Point ℝ)} {way : ℝ}
    {point other : Point ℝ} (hpoint : PassesAt distance points way point)
    (hother : PassesAt distance points way other) : point = other := by
  induction points generalizing way with
  | nil => exact hpoint.elim
  | cons start rest ih =>
    cases rest with
    | nil => exact hpoint.elim
    | cons stop rest =>
      rcases hpoint with ⟨ratio, hzero, -, rfl, rfl⟩ | hlater
      · rcases hother with ⟨again, -, -, hway, rfl⟩ | hlater
        · by_cases heq : start = stop
          · rw [heq, sub_self, smul_zero, smul_zero]
          · have hsame := mul_right_cancel₀ (hdistance.pos heq).ne' hway
            rw [sub_right_inj.mp hsame]
        · exact eq_of_within_of_later hdistance hzero hlater
      · rcases hother with ⟨ratio, hzero, -, rfl, rfl⟩ | hlaterToo
        · exact (eq_of_within_of_later hdistance hzero hlater).symm
        · exact ih hlater hlaterToo

/-- A path on which a vertex is repeated passes the same points. -/
theorem repeated (hdistance : IsDistance distance) {before : List (Point ℝ)} {vertex : Point ℝ}
    {after : List (Point ℝ)} {way : ℝ} {point : Point ℝ}
    (hpasses : PassesAt distance (before ++ vertex :: after) way point) :
    PassesAt distance (before ++ vertex :: vertex :: after) way point := by
  induction before generalizing way with
  | nil =>
    refine Or.inr ?_
    rw [hdistance.self, sub_zero]
    exact hpasses
  | cons first before ih =>
    cases before with
    | nil =>
      refine hpasses.imp_right fun hlater ↦ ?_
      exact Or.inr (by rw [hdistance.self, sub_zero]; exact hlater)
    | cons second before => exact hpasses.imp_right ih

/-- What a path passes is passed after the way to it by a longer path. -/
theorem append (before : List (Point ℝ)) {vertex : Point ℝ} {after : List (Point ℝ)} {way : ℝ}
    {point : Point ℝ} (hpasses : PassesAt distance (vertex :: after) way point) :
    PassesAt distance (before ++ vertex :: after)
      (pathLength distance (before ++ [vertex]) + way) point := by
  have hbeyond : ∀ {start stop rest way}, PassesAt distance (stop :: rest) way point →
      PassesAt distance (start :: stop :: rest) (distance start stop + way) point :=
    fun hlater ↦ Or.inr (by rw [add_sub_cancel_left]; exact hlater)
  induction before with
  | nil =>
    simp only [List.nil_append, pathLength_singleton, zero_add]
    exact hpasses
  | cons first before ih =>
    cases before with
    | nil =>
      simp only [List.cons_append, List.nil_append, pathLength_cons_cons, pathLength_singleton,
        add_zero]
      exact hbeyond hpasses
    | cons second before =>
      simp only [List.cons_append, pathLength_cons_cons, add_assoc]
      exact hbeyond ih

end PassesAt

/-! ### The walk -/

/-- A walk stops within a segment: after the vertices before it and the part of it that is not in
`ratio`, exactly the goal has been reached. -/
structure StopsWithin (distance : Point ℝ → Point ℝ → ℝ) (goal : ℝ) (before : List (Point ℝ))
    (start stop : Point ℝ) (ratio : ℝ) : Prop where
  length_pos : 0 < distance start stop
  ratio_pos : 0 < ratio
  ratio_le_one : ratio ≤ 1
  way : pathLength distance (before ++ [start]) + (1 - ratio) * distance start stop = goal

namespace StopsWithin

variable {goal : ℝ} {before : List (Point ℝ)} {start stop : Point ℝ} {ratio : ℝ}

/-- The ratio is the part of the segment that is left at the goal. -/
theorem ratio_eq (hstops : StopsWithin distance goal before start stop ratio) :
    ratio = (pathLength distance (before ++ [start, stop]) - goal) / distance start stop := by
  rw [eq_div_iff hstops.length_pos.ne', pathLength_append_cons, pathLength_cons_cons,
    pathLength_singleton, ← hstops.way]
  ring

/-- The walk stops at a point of the segment. -/
theorem mem_segment (hstops : StopsWithin distance goal before start stop ratio) :
    stop - ratio • (stop - start) ∈ segment ℝ start stop :=
  ⟨ratio, 1 - ratio, hstops.ratio_pos.le, sub_nonneg.mpr hstops.ratio_le_one,
    add_sub_cancel _ _, by module⟩

/-- The path passes the point where the walk stops after the goal. -/
theorem passesAt (hstops : StopsWithin distance goal before start stop ratio)
    (after : List (Point ℝ)) :
    PassesAt distance (before ++ start :: stop :: after) goal (stop - ratio • (stop - start)) :=
  hstops.way ▸ PassesAt.append before
    (Or.inl ⟨ratio, hstops.ratio_pos.le, hstops.ratio_le_one, rfl, rfl⟩)

/-- The reversed path passes that point after the rest of the length. -/
theorem passesAt_reverse (hdistance : IsDistance distance)
    (hstops : StopsWithin distance goal before start stop ratio) (after : List (Point ℝ)) :
    PassesAt distance (before ++ start :: stop :: after).reverse
      (pathLength distance (before ++ start :: stop :: after) - goal)
      (stop - ratio • (stop - start)) := by
  have hsplit : (before ++ start :: stop :: after).reverse =
      after.reverse ++ stop :: start :: before.reverse := by simp
  have hway : pathLength distance (before ++ start :: stop :: after) - goal =
      pathLength distance (after.reverse ++ [stop]) + ratio * distance stop start := by
    rw [← hstops.way, pathLength_append_cons, pathLength_cons_cons, ← List.reverse_cons,
      pathLength_reverse hdistance, hdistance.symm stop start]
    ring
  rw [hsplit, hway]
  exact PassesAt.append after.reverse (Or.inl ⟨1 - ratio, sub_nonneg.mpr hstops.ratio_le_one,
    sub_le_self 1 hstops.ratio_pos.le, by rw [sub_sub_cancel], by module⟩)

end StopsWithin

/-- A walk that has come no further than its goal, and will come further, stops within a segment. -/
theorem exists_pointBeyond?_segments {goal walked : ℝ} {points : List (Point ℝ)}
    (hwalked : walked ≤ goal) (hbeyond : goal < walked + pathLength distance points) :
    ∃ before start stop after ratio, points = before ++ start :: stop :: after ∧
      StopsWithin distance (goal - walked) before start stop ratio ∧
      pointBeyond? distance goal walked (segments points) =
        some (stop - ratio • (stop - start)) := by
  induction points generalizing walked with
  | nil =>
    rw [pathLength_nil] at hbeyond
    linarith
  | cons start rest ih =>
    cases rest with
    | nil =>
      rw [pathLength_singleton] at hbeyond
      linarith
    | cons stop rest =>
      rw [pathLength_cons_cons] at hbeyond
      by_cases hreached : goal < walked + distance start stop
      · -- The goal lies ahead of the segment or at its start, so the segment has a length.
        have hlength : 0 < distance start stop := by linarith
        refine ⟨[], start, stop, rest, (walked + distance start stop - goal) / distance start stop,
          rfl, ⟨hlength, div_pos (by linarith) hlength, (div_le_one hlength).mpr (by linarith), ?_⟩,
          if_pos hreached⟩
        rw [List.nil_append, pathLength_singleton]
        field_simp
        ring
      · obtain ⟨before, first, second, after, ratio, hsplit, hstops, hpoint⟩ :=
          ih (not_lt.mp hreached) (by linarith)
        obtain ⟨tail, htail⟩ : ∃ tail, before ++ [first] = stop :: tail := by
          cases before with
          | nil => exact ⟨[], by rw [(List.cons.inj hsplit).1]; rfl⟩
          | cons vertex before => exact ⟨before ++ [first], by rw [(List.cons.inj hsplit).1]; rfl⟩
        refine ⟨start :: before, first, second, after, ratio, congrArg (start :: ·) hsplit,
          { hstops with way := ?_ }, (if_neg hreached).trans hpoint⟩
        rw [List.cons_append, htail, pathLength_cons_cons, ← htail]
        linarith [hstops.way]

/-! ### Halfway -/

/-- A path shorter than half a pixel is as good as its first vertex; along any other a walk
begins. -/
theorem halfwayPointBy?_cons (hdistance : IsDistance distance) (first : Point ℝ)
    (rest : List (Point ℝ)) :
    halfwayPointBy? distance (first :: rest) =
      if pathLength distance (first :: rest) < 1 / 2 then some first
      else some ((pointBeyond? distance (pathLength distance (first :: rest) / 2) 0
        (segments (first :: rest))).getD (rest.getLastD first)) := by
  have hround := Exact.round_eq_zero_iff (pathLength_nonneg hdistance (first :: rest))
  unfold halfwayPointBy?
  simp only [Exact.scalar_round_eq, Exact.zero_eq, Exact.numeral_eq, beq_iff_eq, hround]

theorem halfwayPointBy?_of_lt (hdistance : IsDistance distance) {points : List (Point ℝ)}
    (hshort : pathLength distance points < 1 / 2) :
    halfwayPointBy? distance points = points.head? := by
  cases points with
  | nil => rfl
  | cons first rest => rw [halfwayPointBy?_cons hdistance, if_pos hshort, List.head?_cons]

/-- The walk along a path of half a pixel or more stops within a segment, halfway along the path. -/
theorem halfwayPointBy?_of_le (hdistance : IsDistance distance) {points : List (Point ℝ)}
    (hlong : 1 / 2 ≤ pathLength distance points) :
    ∃ before start stop after ratio, points = before ++ start :: stop :: after ∧
      StopsWithin distance (pathLength distance points / 2) before start stop ratio ∧
      pointBeyond? distance (pathLength distance points / 2) 0 (segments points) =
        some (stop - ratio • (stop - start)) ∧
      halfwayPointBy? distance points = some (stop - ratio • (stop - start)) := by
  obtain ⟨before, start, stop, after, ratio, hsplit, hstops, hpoint⟩ :=
    exists_pointBeyond?_segments
      (show (0 : ℝ) ≤ pathLength distance points / 2 by linarith)
      (show pathLength distance points / 2 < 0 + pathLength distance points by linarith)
  rw [sub_zero] at hstops
  refine ⟨before, start, stop, after, ratio, hsplit, hstops, hpoint, ?_⟩
  cases points with
  | nil => cases hpoint
  | cons first rest =>
    rw [halfwayPointBy?_cons hdistance, if_neg (not_lt.mpr hlong), hpoint, Option.getD_some]

/-- The point halfway along a path is the only one that the path passes after half its length. -/
theorem halfwayPointBy?_of_passesAt (hdistance : IsDistance distance) {points : List (Point ℝ)}
    (hlong : 1 / 2 ≤ pathLength distance points) {point : Point ℝ}
    (hpasses : PassesAt distance points (pathLength distance points / 2) point) :
    halfwayPointBy? distance points = some point := by
  obtain ⟨before, start, stop, after, ratio, rfl, hstops, -, hanchor⟩ :=
    halfwayPointBy?_of_le hdistance hlong
  rw [hanchor, (hstops.passesAt after).unique hdistance hpasses]

/-- A vertex repeated next to itself does not move the point halfway along a path. -/
theorem halfwayPointBy?_repeated (hdistance : IsDistance distance) (before : List (Point ℝ))
    (vertex : Point ℝ) (after : List (Point ℝ)) :
    halfwayPointBy? distance (before ++ vertex :: vertex :: after) =
      halfwayPointBy? distance (before ++ vertex :: after) := by
  have hlength := pathLength_repeated hdistance before vertex after
  rcases lt_or_ge (pathLength distance (before ++ vertex :: after)) (1 / 2) with hshort | hlong
  · rw [halfwayPointBy?_of_lt hdistance hshort,
      halfwayPointBy?_of_lt hdistance (hlength ▸ hshort)]
    cases before <;> rfl
  · obtain ⟨earlier, start, stop, later, ratio, hsplit, hstops, -, hanchor⟩ :=
      halfwayPointBy?_of_le hdistance hlong
    have hpasses := hstops.passesAt later
    rw [← hsplit] at hpasses
    rw [hanchor]
    refine halfwayPointBy?_of_passesAt hdistance (hlength.symm ▸ hlong) ?_
    rw [hlength]
    exact hpasses.repeated hdistance

/-- The anchor of a path lies halfway along it, whatever distance there is between its vertices and
however often vertices are repeated. If the path is half a pixel long or longer, the walk along its
segments stops within one of them: its length, by which the walk divides, is positive, what the walk
leaves of it is a ratio between zero and one, and the way to the point there is half the length of
the path. The same point lies halfway along the reversed path. A vertex repeated next to itself
never matters. A shorter path has its first vertex for an anchor, and only a path without vertices
has none. Assumes: `distance` is symmetric, zero between equal points and positive between
others. -/
theorem halfwayPoint_halves {distance : Point ℝ → Point ℝ → ℝ} (hdistance : IsDistance distance)
    (points : List (Point ℝ)) :
    let total := pathLength distance points
    (1 / 2 ≤ total → ∃ before start stop after ratio anchor,
      points = before ++ start :: stop :: after ∧
      StopsWithin distance (total / 2) before start stop ratio ∧
      ratio = (pathLength distance (before ++ [start, stop]) - total / 2) / distance start stop ∧
      anchor = stop - ratio • (stop - start) ∧ anchor ∈ segment ℝ start stop ∧
      pointBeyond? distance (total / 2) 0 (segments points) = some anchor ∧
      halfwayPointBy? distance points = some anchor ∧
      halfwayPointBy? distance points.reverse = some anchor) ∧
    (∀ before vertex after, points = before ++ vertex :: after →
      halfwayPointBy? distance (before ++ vertex :: vertex :: after) =
        halfwayPointBy? distance points) ∧
    (total < 1 / 2 → halfwayPointBy? distance points = points.head?) ∧
    (halfwayPointBy? distance points = none ↔ points = []) := by
  intro total
  refine ⟨fun hlong ↦ ?_, ?_, halfwayPointBy?_of_lt hdistance, ?_⟩
  · obtain ⟨before, start, stop, after, ratio, rfl, hstops, hpoint, hanchor⟩ :=
      halfwayPointBy?_of_le hdistance hlong
    refine ⟨before, start, stop, after, ratio, _, rfl, hstops, hstops.ratio_eq, rfl,
      hstops.mem_segment, hpoint, hanchor, ?_⟩
    have hlength := pathLength_reverse hdistance (before ++ start :: stop :: after)
    refine halfwayPointBy?_of_passesAt hdistance (hlength.symm ▸ hlong) ?_
    have hpasses := hstops.passesAt_reverse hdistance after
    rw [hlength]
    rwa [sub_half] at hpasses
  · rintro before vertex after rfl
    exact halfwayPointBy?_repeated hdistance before vertex after
  · cases points with
    | nil => exact iff_of_true rfl rfl
    | cons first rest =>
      rw [halfwayPointBy?_cons hdistance, ← apply_ite some]
      exact iff_of_false (Option.some_ne_none _) (List.cons_ne_nil _ _)

/-- The path goes to a corner and as far again, and says where it begins and where the corner is
twice. Its anchor is the corner, in both directions. -/
theorem halfwayPoint_halves_corner :
    let path : List (Point ℝ) := [⟨0, 0⟩, ⟨0, 0⟩, ⟨4, 0⟩, ⟨4, 0⟩, ⟨4, 4⟩]
    pathLength Point.distanceTo path = 8 ∧ halfwayPoint? path = some ⟨4, 0⟩ ∧
      halfwayPoint? path.reverse = some ⟨4, 0⟩ := by
  intro path
  have hside : (⟨0, 0⟩ : Point ℝ).distanceTo ⟨4, 0⟩ = 4 := by
    change √(((4 : ℝ) - 0) ^ 2 + (0 - 0) ^ 2) = 4
    rw [sub_zero, sub_self, zero_pow two_ne_zero, add_zero, Real.sqrt_sq (by norm_num)]
  have hother : (⟨4, 0⟩ : Point ℝ).distanceTo ⟨4, 4⟩ = 4 := by
    change √(((4 : ℝ) - 4) ^ 2 + (4 - 0) ^ 2) = 4
    rw [sub_zero, sub_self, zero_pow two_ne_zero, zero_add, Real.sqrt_sq (by norm_num)]
  have htotal : pathLength Point.distanceTo path = 8 := by
    simp only [path, pathLength_cons_cons, pathLength_singleton, Point.distanceTo_self, hside,
      hother]
    norm_num
  have hlong : 1 / 2 ≤ pathLength Point.distanceTo path := by
    rw [htotal]
    norm_num
  have hcorner : halfwayPoint? path = some ⟨4, 0⟩ := by
    refine halfwayPointBy?_of_passesAt isDistance_distanceTo hlong ?_
    refine Or.inr (Or.inl ⟨0, le_rfl, zero_le_one, ?_, ?_⟩)
    · rw [htotal, Point.distanceTo_self, hside]
      norm_num
    · rw [zero_smul, sub_zero]
  obtain ⟨-, -, -, -, -, anchor, -, -, -, -, -, -, hanchor, hreverse⟩ :=
    (halfwayPoint_halves isDistance_distanceTo path).1 hlong
  exact ⟨htotal, hcorner, (hreverse.trans hanchor.symm).trans hcorner⟩

end LabelledMap
