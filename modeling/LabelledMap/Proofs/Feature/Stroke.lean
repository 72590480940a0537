import LabelledMap.Proofs.Feature.Rings

/-!
# Distances from strokes

With exact arithmetic `segmentDistance` is the distance from a point to the nearest point of a
segment (`isLeast_segmentDistance`). The reason is that the value between two bounds that is nearest
to another one is not passed on the way from there to any value between the bounds
(`Exact.clamp_between`).

So the stroke of a path is hit just where its outline is within reach (`nearStroke_iff`). A lone
vertex belongs to the outline, and a closed part with one or two vertices loses nothing by the side
that it is not tried on (`nearPart_cons_iff`).
-/

set_option autoImplicit false

namespace LabelledMap

theorem Exact.clamp_mem_Icc (value : ℝ) {low high : ℝ} (hbounds : low ≤ high) :
    Scalar.clamp value low high ∈ Set.Icc low high := by
  unfold Scalar.clamp
  split_ifs with hlow hhigh
  · exact ⟨le_rfl, hbounds⟩
  · exact ⟨hbounds, le_rfl⟩
  · exact ⟨not_lt.mp hlow, not_lt.mp hhigh⟩

/-- A value between the bounds and the clamped one lie on different sides of the nearest value. -/
theorem Exact.clamp_between (value : ℝ) {low high other : ℝ} (hlow : low ≤ other)
    (hhigh : other ≤ high) :
    0 ≤ (other - Scalar.clamp value low high) * (Scalar.clamp value low high - value) := by
  unfold Scalar.clamp
  split_ifs with hbelow habove
  · exact mul_nonneg (by linarith) (by linarith)
  · exact mul_nonneg_of_nonpos_of_nonpos (by linarith) (by linarith)
  · rw [sub_self, mul_zero]

/-- The distance to a segment is the distance to one of its points. -/
theorem exists_segmentDistance_eq (point start stop : Point ℝ) :
    ∃ nearest ∈ segment ℝ start stop,
      segmentDistance point start stop = point.distanceTo nearest := by
  unfold segmentDistance
  dsimp only
  split_ifs
  · exact ⟨start, left_mem_segment ℝ start stop, rfl⟩
  · refine ⟨_, ?_, rfl⟩
    rw [segment_eq_image']
    refine ⟨_, ?_, rfl⟩
    simpa using Exact.clamp_mem_Icc _ zero_le_one

/-- No point of a segment is nearer. -/
theorem segmentDistance_le (point : Point ℝ) {start stop other : Point ℝ}
    (hother : other ∈ segment ℝ start stop) :
    segmentDistance point start stop ≤ point.distanceTo other := by
  rw [segment_eq_image'] at hother
  obtain ⟨ratio, ⟨hlow, hhigh⟩, rfl⟩ := hother
  unfold segmentDistance
  extract_lets along square product
  change _ ≤ point.distanceTo (start + ratio • along)
  split_ifs with hzero
  · have hsquare : along.x * along.x + along.y * along.y = 0 := by simpa using hzero
    have halong : along = 0 := by
      obtain ⟨hx, hy⟩ := (mul_self_add_mul_self_eq_zero).mp hsquare
      exact Point.ext hx hy
    rw [halong, smul_zero, add_zero]
  · have hsquare : square ≠ 0 := by simpa using hzero
    have hproduct : product = product / square * square := (div_mul_cancel₀ product hsquare).symm
    have hbetween := Exact.clamp_between (product / square) hlow hhigh
    simp only [Exact.zero_eq, Exact.one_eq]
    set nearest := Scalar.clamp (product / square) 0 1
    refine Real.sqrt_le_sqrt (sub_nonneg.mp ?_)
    have hdifference : (start.x + ratio * along.x - point.x) ^ 2 +
        (start.y + ratio * along.y - point.y) ^ 2 -
          ((start.x + nearest * along.x - point.x) ^ 2 +
            (start.y + nearest * along.y - point.y) ^ 2) =
              square * ((ratio - nearest) ^ 2 +
                2 * ((ratio - nearest) * (nearest - product / square))) := by
      linear_combination (-2 * (ratio - nearest)) * hproduct
    exact hdifference ▸ mul_nonneg (add_nonneg (mul_self_nonneg _) (mul_self_nonneg _))
      (add_nonneg (sq_nonneg _) (mul_nonneg zero_le_two hbetween))

/-- The distance to a segment is the least distance to any of its points. -/
theorem isLeast_segmentDistance (point start stop : Point ℝ) :
    IsLeast (point.distanceTo '' segment ℝ start stop) (segmentDistance point start stop) := by
  obtain ⟨nearest, hnearest, hdistance⟩ := exists_segmentDistance_eq point start stop
  refine ⟨⟨nearest, hnearest, hdistance.symm⟩, ?_⟩
  rintro distance ⟨other, hother, rfl⟩
  exact segmentDistance_le point hother

theorem segmentDistance_swap (point start stop : Point ℝ) :
    segmentDistance point stop start = segmentDistance point start stop := by
  have hswapped := isLeast_segmentDistance point stop start
  rw [segment_symm] at hswapped
  exact hswapped.unique (isLeast_segmentDistance point start stop)

theorem segmentDistance_le_iff {point start stop : Point ℝ} {reach : ℝ} :
    segmentDistance point start stop ≤ reach ↔
      ∃ near ∈ segment ℝ start stop, point.distanceTo near ≤ reach := by
  constructor
  · intro hreach
    obtain ⟨nearest, hnearest, hdistance⟩ := exists_segmentDistance_eq point start stop
    exact ⟨nearest, hnearest, hdistance ▸ hreach⟩
  · rintro ⟨near, hnear, hreach⟩
    exact (segmentDistance_le point hnear).trans hreach

/-! ### Outlines -/

/-- What is drawn of a part of a path: a lone vertex, the segments between consecutive vertices, and
in a closed path the segment from the last vertex to the first. -/
def partOutline (closed : Bool) (part : List (Point ℝ)) : Set (Point ℝ) :=
  {vertex | part = [vertex]} ∪ (⋃ side ∈ segments part, segment ℝ side.1 side.2) ∪
    ⋃ (_ : closed = true) (first ∈ part.head?) (last ∈ part.getLast?), segment ℝ last first

/-- What is drawn of a path. -/
def outline (parts : List (List (Point ℝ))) (closed : Bool) : Set (Point ℝ) :=
  ⋃ part ∈ parts, partOutline closed part

theorem mem_partOutline_nil {closed : Bool} {near : Point ℝ} : near ∉ partOutline closed [] := by
  simp [partOutline, segments]

theorem mem_partOutline_cons {closed : Bool} {first near : Point ℝ} {rest : List (Point ℝ)} :
    near ∈ partOutline closed (first :: rest) ↔
      rest = [] ∧ near = first ∨
        (∃ side ∈ segments (first :: rest), near ∈ segment ℝ side.1 side.2) ∨
          closed = true ∧ near ∈ segment ℝ (rest.getLastD first) first := by
  simp [partOutline, List.getLast?_cons, List.getLastD_eq_getLast?, and_comm, eq_comm, or_assoc]

/-- A closed part is also tried on the segment from its last vertex to its first where this is left
out: with one vertex that is this vertex, and with two it is the segment between them. -/
theorem nearPart_cons_iff {closed : Bool} {point first : Point ℝ} {reach : ℝ}
    {rest : List (Point ℝ)} :
    nearPart closed point reach (first :: rest) = true ↔
      rest = [] ∧ point.distanceTo first ≤ reach ∨
        (∃ side ∈ segments (first :: rest), segmentDistance point side.1 side.2 ≤ reach) ∨
          closed = true ∧ segmentDistance point (rest.getLastD first) first ≤ reach := by
  rcases rest with _ | ⟨second, _ | ⟨third, rest⟩⟩
  · have hself : segmentDistance point first first = point.distanceTo first := by
      simp [segmentDistance]
    simp [nearPart, segments, hself]
  · simp [nearPart, segments, segmentDistance_swap point first second]
  · simp [nearPart]

/-- A point is near a part of a path just if it is near a point of its outline. -/
theorem nearPart_iff {closed : Bool} {point : Point ℝ} {reach : ℝ} {part : List (Point ℝ)} :
    nearPart closed point reach part = true ↔
      ∃ near ∈ partOutline closed part, point.distanceTo near ≤ reach := by
  cases part with
  | nil => simp [mem_partOutline_nil, nearPart, segments]
  | cons first rest =>
    simp only [nearPart_cons_iff, mem_partOutline_cons, segmentDistance_le_iff]
    constructor
    · rintro (⟨hlone, hreach⟩ | ⟨side, hside, near, hnear, hreach⟩ | ⟨hclosed, near, hnear, hreach⟩)
      · exact ⟨first, Or.inl ⟨hlone, rfl⟩, hreach⟩
      · exact ⟨near, Or.inr (Or.inl ⟨side, hside, hnear⟩), hreach⟩
      · exact ⟨near, Or.inr (Or.inr ⟨hclosed, hnear⟩), hreach⟩
    · rintro ⟨near, ⟨hlone, rfl⟩ | ⟨side, hside, hnear⟩ | ⟨hclosed, hnear⟩, hreach⟩
      · exact Or.inl ⟨hlone, hreach⟩
      · exact Or.inr (Or.inl ⟨side, hside, near, hnear, hreach⟩)
      · exact Or.inr (Or.inr ⟨hclosed, near, hnear, hreach⟩)

theorem nearStroke_iff {parts : List (List (Point ℝ))} {closed : Bool} {point : Point ℝ}
    {reach : ℝ} :
    nearStroke parts closed point reach = true ↔
      ∃ near ∈ outline parts closed, point.distanceTo near ≤ reach := by
  unfold nearStroke outline
  simp only [List.any_eq_true, nearPart_iff, Set.mem_iUnion, exists_prop]
  constructor
  · rintro ⟨part, hpart, near, hnear, hreach⟩
    exact ⟨near, ⟨part, hpart, hnear⟩, hreach⟩
  · rintro ⟨near, ⟨part, hpart, hnear⟩, hreach⟩
    exact ⟨part, hpart, near, hnear, hreach⟩

/-- A closed part is drawn along the sides of its ring. -/
theorem mem_partOutline_closed {part : List (Point ℝ)} {near : Point ℝ} :
    near ∈ partOutline true part ↔ ∃ side ∈ ringSides part, near ∈ segment ℝ side.1 side.2 := by
  cases part with
  | nil => simp [mem_partOutline_nil, ringSides]
  | cons first rest =>
    have hswap : ∀ side : Point ℝ × Point ℝ,
        segment ℝ side.swap.1 side.swap.2 = segment ℝ side.1 side.2 :=
      fun side ↦ segment_symm ℝ side.2 side.1
    rw [mem_partOutline_cons, ringSides_cons]
    simp only [List.mem_cons, List.mem_map, exists_eq_or_imp, exists_exists_and_eq_and, hswap,
      true_and, segment_symm ℝ first]
    constructor
    · rintro (⟨rfl, rfl⟩ | hsegment | hclosing)
      · exact Or.inl (left_mem_segment ℝ _ _)
      · exact Or.inr hsegment
      · exact Or.inl hclosing
    · rintro (hclosing | hsegment)
      · exact Or.inr (Or.inr hclosing)
      · exact Or.inr (Or.inl hsegment)

/-- A point is near a closed part just if it is near a point of one of its sides. -/
theorem nearPart_closed_iff {point : Point ℝ} {reach : ℝ} {part : List (Point ℝ)} :
    nearPart true point reach part = true ↔
      ∃ side ∈ ringSides part, ∃ near ∈ segment ℝ side.1 side.2, point.distanceTo near ≤ reach := by
  simp only [nearPart_iff, mem_partOutline_closed]
  constructor
  · rintro ⟨near, ⟨side, hside, hnear⟩, hreach⟩
    exact ⟨side, hside, near, hnear, hreach⟩
  · rintro ⟨side, hside, near, hnear, hreach⟩
    exact ⟨near, ⟨side, hside, hnear⟩, hreach⟩

/-! ### Targets -/

namespace Target

theorem contains_open_iff {id : FeatureId} {parts : List (List (Point ℝ))} {weight tolerance : ℝ}
    {point : Point ℝ} :
    (⟨id, .path parts false, weight⟩ : Target ℝ).contains point tolerance = true ↔
      ∃ near ∈ outline parts false, point.distanceTo near ≤ weight / 2 + tolerance := by
  rw [← nearStroke_iff]
  simp only [contains, Bool.false_and, Bool.false_or, Exact.numeral_eq]

/-- A target that is hit within a tolerance is hit within every larger one. -/
theorem contains_mono {target : Target ℝ} {point : Point ℝ} {tolerance larger : ℝ}
    (hle : tolerance ≤ larger) (hcontains : target.contains point tolerance = true) :
    target.contains point larger = true := by
  obtain ⟨id, shape, weight⟩ := target
  cases shape with
  | circle center radius =>
    have hwithin : point.distanceTo center ≤ radius + tolerance := of_decide_eq_true hcontains
    exact decide_eq_true (hwithin.trans (by linarith))
  | path parts closed =>
    simp only [contains, Bool.or_eq_true, nearStroke_iff] at hcontains ⊢
    refine hcontains.imp_right ?_
    rintro ⟨near, hnear, hreach⟩
    exact ⟨near, hnear, hreach.trans (by linarith)⟩

end Target

/-- The stroke of a path is hit by its distance. Assumes nothing of the path, which has any parts
and is open or closed, nor of the weight and the tolerance. A point is near the stroke just if it is
within half the weight and the tolerance of a point of the outline. The distance to a segment, also
to one between equal points, is the least of the distances to its points, one of which has it, and
is the same in both directions. An open path is hit just within this reach of its outline, and no
target that is hit is missed with a larger tolerance. -/
theorem nearStroke_measures_outline (parts : List (List (Point ℝ))) (closed : Bool)
    (point : Point ℝ) (weight tolerance : ℝ) :
    (nearStroke parts closed point (weight / 2 + tolerance) = true ↔
      ∃ near ∈ outline parts closed, point.distanceTo near ≤ weight / 2 + tolerance) ∧
    (∀ start stop : Point ℝ,
      IsLeast (point.distanceTo '' segment ℝ start stop) (segmentDistance point start stop) ∧
        segmentDistance point stop start = segmentDistance point start stop) ∧
    (∀ id : FeatureId,
      (⟨id, .path parts false, weight⟩ : Target ℝ).contains point tolerance = true ↔
        ∃ near ∈ outline parts false, point.distanceTo near ≤ weight / 2 + tolerance) ∧
    ∀ (target : Target ℝ) (larger : ℝ), tolerance ≤ larger →
      target.contains point tolerance = true → target.contains point larger = true :=
  ⟨nearStroke_iff,
    fun start stop ↦
      ⟨isLeast_segmentDistance point start stop, segmentDistance_swap point start stop⟩,
    fun _ ↦ Target.contains_open_iff, fun _ _ ↦ Target.contains_mono⟩

/-- Three sides of a square, and a lone vertex that is hit from its right. -/
theorem nearStroke_measures_outline_vertex :
    let parts : List (List (Point ℝ)) := [[⟨0, 0⟩, ⟨10, 0⟩, ⟨10, 10⟩, ⟨0, 10⟩], [⟨20, 5⟩]]
    let target : Target ℝ := ⟨1, .path parts false, 2⟩
    (1 : ℝ) ≤ 3 ∧ target.contains ⟨22, 5⟩ 1 = true ∧ target.contains ⟨22, 5⟩ 3 = true := by
  intro parts target
  obtain ⟨-, -, hopen, hlarger⟩ := nearStroke_measures_outline parts false ⟨22, 5⟩ 2 1
  have hvertex : (⟨20, 5⟩ : Point ℝ) ∈ outline parts false :=
    Set.mem_iUnion₂.mpr ⟨[⟨20, 5⟩], by simp [parts], mem_partOutline_cons.mpr (Or.inl ⟨rfl, rfl⟩)⟩
  have hcontains : target.contains ⟨22, 5⟩ 1 = true :=
    (hopen 1).mpr ⟨⟨20, 5⟩, hvertex, Point.distanceTo_le_iff.mpr (by norm_num)⟩
  exact ⟨by norm_num, hcontains, hlarger target 3 (by norm_num) hcontains⟩

end LabelledMap
