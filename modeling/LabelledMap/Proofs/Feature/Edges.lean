import LabelledMap.Proofs.Feature.Rings
import Mathlib.Algebra.BigOperators.Ring.Nat
import Mathlib.Data.Sym.Sym2

/-!
# Rings by their edges

With exact arithmetic, whether a point is inside the rings of a path depends on their edges alone:
on which edges between different points there are an odd number of times, and neither on the
directions of edges nor on the rings they belong to (`insideRings_of_edges`).

The ray from a point meets an edge in both directions or in none, and no edge between equal points
(`not_isDiag_of_edgeCrosses`). So it meets an even number of edges of a ring with fewer than three
vertices (`even_countP_of_short`), and leaving these rings out changes nothing: a point is inside
if the ray meets an odd number of all the edges (`insideRings_iff_odd`). The parity of this number
is that of the number of edges met that there are an odd number of times (`even_countP_iff`).

`Redraws` lists ways to draw the same area with other rings. A ring has the edges of the path that
returns to its first vertex (`ringEdges_cons_perm`), and a path can be cut at each of its vertices
(`pathEdges_append_cons`), from which it follows that redrawing adds idle edges at most
(`Redraws.sameEdges`).
-/

set_option autoImplicit false

namespace LabelledMap

/-! ### Parities of counts -/

/-- How many elements of a list have a property is even just if an even number of elements with the
property occur an odd number of times. -/
theorem even_countP_iff {α : Type*} [DecidableEq α] {property : α → Bool} {list : List α}
    {among : Finset α} (hamong : ∀ element ∈ list, element ∈ among) :
    Even (list.countP property) ↔
      Even (among.filter fun element ↦
        property element = true ∧ Odd (list.count element)).card := by
  have hlist : ∑ element ∈ list.toFinset with property element = true, list.count element =
      list.countP property := by
    simpa using Finset.sum_filter_count_eq_countP (fun element ↦ property element = true) list
  have hsubset : list.toFinset.filter (fun element ↦ property element = true) ⊆
      among.filter fun element ↦ property element = true :=
    Finset.filter_subset_filter _ fun element hmem ↦ hamong element (List.mem_toFinset.mp hmem)
  rw [← hlist, Finset.sum_subset hsubset, Finset.even_sum_iff_even_card_odd, Finset.filter_filter]
  intro element hmem hnot
  refine List.count_eq_zero.mpr fun hlist ↦ hnot ?_
  exact Finset.mem_filter.mpr ⟨List.mem_toFinset.mpr hlist, (Finset.mem_filter.mp hmem).2⟩

/-- Two lists have the parity of the number of elements with a property in common if they have that
of the number of occurrences of each such element in common. -/
theorem even_countP_congr {α : Type*} [DecidableEq α] {property : α → Bool} {first second : List α}
    (hcount : ∀ element, property element = true →
      (Even (first.count element) ↔ Even (second.count element))) :
    Even (first.countP property) ↔ Even (second.countP property) := by
  have hfirst : ∀ element ∈ first, element ∈ (first ++ second).toFinset := by simp +contextual
  have hsecond : ∀ element ∈ second, element ∈ (first ++ second).toFinset := by simp +contextual
  rw [even_countP_iff hfirst, even_countP_iff hsecond]
  refine iff_of_eq (congrArg Even (congrArg Finset.card (Finset.filter_congr fun element _ ↦ ?_)))
  refine and_congr_right fun hproperty ↦ ?_
  rw [← Nat.not_even_iff_odd, ← Nat.not_even_iff_odd, hcount element hproperty]

/-! ### The edges of paths and rings -/

/-- The edges between consecutive vertices of a path, without their directions. -/
def pathEdges (points : List (Point ℝ)) : List (Sym2 (Point ℝ)) :=
  (segments points).map fun side ↦ s(side.1, side.2)

/-- The edges of a ring, closed from its last vertex to its first, without their directions. -/
def ringEdges (ring : List (Point ℝ)) : List (Sym2 (Point ℝ)) :=
  (ringSides ring).map fun side ↦ s(side.1, side.2)

/-- The edges of all rings. -/
def edges (rings : List (List (Point ℝ))) : List (Sym2 (Point ℝ)) := rings.flatMap ringEdges

theorem pathEdges_cons_cons (start stop : Point ℝ) (rest : List (Point ℝ)) :
    pathEdges (start :: stop :: rest) = s(start, stop) :: pathEdges (stop :: rest) := rfl

/-- A path has the edges up to one of its vertices and those from there. -/
theorem pathEdges_append_cons (before : List (Point ℝ)) (vertex : Point ℝ)
    (after : List (Point ℝ)) :
    pathEdges (before ++ vertex :: after) =
      pathEdges (before ++ [vertex]) ++ pathEdges (vertex :: after) := by
  unfold pathEdges
  rw [segments_append_cons, List.map_append]

theorem pathEdges_reverse (points : List (Point ℝ)) :
    pathEdges points.reverse = (pathEdges points).reverse := by
  have hswap : (fun side : Point ℝ × Point ℝ ↦ s(side.1, side.2)) ∘ Prod.swap =
      fun side ↦ s(side.1, side.2) := funext fun side ↦ Sym2.eq_swap
  unfold pathEdges
  rw [segments_reverse, List.map_reverse, List.map_map, hswap]

/-- A ring has the edges of the path that returns to its first vertex. -/
theorem ringEdges_cons_perm (first : Point ℝ) (rest : List (Point ℝ)) :
    (ringEdges (first :: rest)).Perm (pathEdges (first :: rest ++ [first])) := by
  have hswap : ∀ side : Point ℝ × Point ℝ, s(side.swap.1, side.swap.2) = s(side.1, side.2) :=
    fun side ↦ Sym2.eq_swap
  have hedges : ringEdges (first :: rest) =
      s(first, rest.getLastD first) :: pathEdges (first :: rest) := by
    unfold ringEdges pathEdges
    rw [ringSides_cons, List.map_cons, List.map_map]
    simp only [Function.comp_def, hswap]
  rw [hedges]
  obtain rfl | ⟨init, last, rfl⟩ := List.eq_nil_or_concat' rest
  · exact List.Perm.refl _
  · have hpath : first :: (init ++ [last]) ++ [first] = (first :: init) ++ last :: [first] := by
      simp
    rw [hpath, pathEdges_append_cons, List.getLastD_concat, Sym2.eq_swap]
    exact (List.perm_append_singleton _ _).symm

theorem ringEdges_perm_of_isRotated {ring other : List (Point ℝ)} (hrotated : ring ~r other) :
    (ringEdges ring).Perm (ringEdges other) := (ringSides_perm hrotated).map _

theorem ringEdges_reverse_perm (ring : List (Point ℝ)) :
    (ringEdges ring.reverse).Perm (ringEdges ring) := by
  cases ring with
  | nil => exact List.Perm.refl _
  | cons first rest =>
    have hrotated : (first :: rest).reverse ~r (first :: rest.reverse) := by
      rw [List.reverse_cons]
      exact List.isRotated_append
    have hpath : first :: rest.reverse ++ [first] = (first :: rest ++ [first]).reverse := by simp
    refine (ringEdges_perm_of_isRotated hrotated).trans ((ringEdges_cons_perm _ _).trans ?_)
    rw [hpath, pathEdges_reverse]
    exact (List.reverse_perm _).trans (ringEdges_cons_perm _ _).symm

/-- A ring through two vertices consists of the path from the one to the other and the path back. -/
theorem ringEdges_append_perm (first : Point ℝ) (left : List (Point ℝ)) (second : Point ℝ)
    (right : List (Point ℝ)) :
    (ringEdges (first :: left ++ second :: right)).Perm
      (pathEdges (first :: left ++ [second]) ++ pathEdges (second :: right ++ [first])) := by
  have hpath : first :: (left ++ second :: right) ++ [first] =
      (first :: left) ++ second :: (right ++ [first]) := by simp
  refine (ringEdges_cons_perm first (left ++ second :: right)).trans ?_
  rw [hpath, pathEdges_append_cons]
  exact List.Perm.refl _

/-- The last vertex of a ring is joined to the first. -/
theorem ringEdges_concat_perm (first : Point ℝ) (rest : List (Point ℝ)) (last : Point ℝ) :
    (ringEdges (first :: rest ++ [last])).Perm
      (s(first, last) :: pathEdges (first :: rest ++ [last])) := by
  have hback : pathEdges (last :: [] ++ [first]) = [s(first, last)] := by
    rw [Sym2.eq_swap]
    rfl
  refine (ringEdges_append_perm first rest last []).trans ?_
  rw [hback]
  exact List.perm_append_singleton _ _

/-- The halves of a ring have the chord between them as an edge each. -/
theorem ringEdges_split_perm (first : Point ℝ) (left : List (Point ℝ)) (second : Point ℝ)
    (right : List (Point ℝ)) :
    (ringEdges (first :: left ++ [second]) ++ ringEdges (second :: right ++ [first])).Perm
      (s(first, second) :: s(first, second) :: ringEdges (first :: left ++ second :: right)) := by
  have hright := ringEdges_concat_perm second right first
  rw [Sym2.eq_swap] at hright
  refine ((ringEdges_concat_perm first left second).append hright).trans (List.Perm.cons _ ?_)
  exact List.perm_middle.trans ((ringEdges_append_perm first left second right).symm.cons _)

/-- A ring that goes over a bridge to another ring and back has the edges of both, and the bridge
twice. -/
theorem ringEdges_join_perm (first : Point ℝ) (outer : List (Point ℝ)) (second : Point ℝ)
    (inner : List (Point ℝ)) :
    (ringEdges (first :: outer ++ first :: second :: inner ++ [second])).Perm
      (s(first, second) :: s(first, second) ::
        (ringEdges (first :: outer) ++ ringEdges (second :: inner))) := by
  have hring : first :: outer ++ first :: second :: inner ++ [second] =
      first :: outer ++ first :: (second :: inner ++ [second]) := by simp
  have hbridge : pathEdges (first :: (second :: inner ++ [second]) ++ [first]) =
      s(first, second) :: (pathEdges (second :: inner ++ [second]) ++ [s(first, second)]) := by
    have hpath : first :: (second :: inner ++ [second]) ++ [first] =
        first :: second :: (inner ++ second :: [first]) := by simp
    rw [hpath, pathEdges_cons_cons, ← List.cons_append, pathEdges_append_cons, Sym2.eq_swap]
    rfl
  rw [hring]
  refine (ringEdges_append_perm first outer first _).trans ?_
  rw [hbridge]
  refine List.perm_middle.trans (List.Perm.cons _ ?_)
  rw [← List.append_assoc]
  refine (List.perm_append_singleton _ _).trans (List.Perm.cons _ ?_)
  exact (ringEdges_cons_perm first outer).symm.append (ringEdges_cons_perm second inner).symm

/-! ### What the ray meets -/

/-- Whether the ray to the right of a point meets an edge. -/
noncomputable def edgeCrosses (point : Point ℝ) : Sym2 (Point ℝ) → Bool :=
  Sym2.lift ⟨fun start stop ↦ rayCrosses point (start, stop),
    fun start stop ↦ rayCrosses_swap point (stop, start)⟩

theorem countP_edgeCrosses (point : Point ℝ) (ring : List (Point ℝ)) :
    (ringEdges ring).countP (edgeCrosses point) = (ringSides ring).countP (rayCrosses point) :=
  List.countP_map

/-- The ray meets no edge between equal points. -/
theorem not_isDiag_of_edgeCrosses {point : Point ℝ} {edge : Sym2 (Point ℝ)}
    (hcrosses : edgeCrosses point edge = true) : ¬ edge.IsDiag := by
  induction edge with
  | h start stop =>
    intro hdiag
    obtain rfl : start = stop := hdiag
    have hlevel := passesLevel_of_rayCrosses hcrosses
    simp [passesLevel, descends] at hlevel

/-- The ray meets an even number of edges of a ring that bounds nothing. -/
theorem even_countP_of_short {ring : List (Point ℝ)} (hshort : ring.length < 3) (point : Point ℝ) :
    Even ((ringEdges ring).countP (edgeCrosses point)) := by
  rcases ring with _ | ⟨first, _ | ⟨second, _ | ⟨third, rest⟩⟩⟩
  · exact Even.zero
  · have hedges : ringEdges [first] = [s(first, first)] := rfl
    have hself : edgeCrosses point s(first, first) = false :=
      Bool.eq_false_iff.mpr fun hcrosses ↦ not_isDiag_of_edgeCrosses hcrosses rfl
    simp [hedges, hself]
  · have hedges : ringEdges [first, second] = [s(first, second), s(first, second)] :=
      congrArg (s(first, second) :: [·]) Sym2.eq_swap
    rw [hedges, List.countP_cons, List.countP_cons, List.countP_nil, zero_add]
    exact ⟨_, rfl⟩
  · exact absurd hshort (by simp)

/-- A point is inside if the ray meets an odd number of edges. -/
theorem insideRings_iff_odd (rings : List (List (Point ℝ))) (point : Point ℝ) :
    insideRings rings point = true ↔ Odd ((edges rings).countP (edgeCrosses point)) := by
  have hsides : Even (((rings.filter fun ring ↦ 3 ≤ ring.length).flatMap ringSides).countP
      (rayCrosses point)) ↔ Even ((edges rings).countP (edgeCrosses point)) := by
    induction rings with
    | nil => exact Iff.rfl
    | cons ring rest ih =>
      unfold edges at ih ⊢
      rw [List.flatMap_cons, List.countP_append, Nat.even_add, ← ih]
      by_cases hlength : 3 ≤ ring.length
      · rw [List.filter_cons_of_pos (by simpa using hlength), List.flatMap_cons,
          List.countP_append, Nat.even_add, countP_edgeCrosses]
      · rw [List.filter_cons_of_neg (by simpa using hlength)]
        simp [even_countP_of_short (not_le.mp hlength)]
  rw [← Nat.not_even_iff_odd, ← hsides, Nat.not_even_iff_odd, Nat.odd_iff]
  exact beq_iff_eq

/-- Further rings turn inside into outside and outside into inside where a point is inside them. -/
theorem insideRings_append (first second : List (List (Point ℝ))) (point : Point ℝ) :
    insideRings (first ++ second) point =
      (insideRings first point ^^ insideRings second point) := by
  have hedges : edges (first ++ second) = edges first ++ edges second := List.flatMap_append
  rw [Bool.eq_iff_iff, insideRings_iff_odd, hedges, List.countP_append, Nat.odd_add,
    ← Nat.not_odd_iff_even, ← insideRings_iff_odd, ← insideRings_iff_odd, Bool.xor_iff_ne]
  cases insideRings first point <;> cases insideRings second point <;> decide

/-! ### Rings with the same edges -/

open Classical in
/-- Each edge between different points occurs in both lists of rings an even number of times or in
both an odd number of times. -/
def SameEdges (first second : List (List (Point ℝ))) : Prop :=
  ∀ edge : Sym2 (Point ℝ), ¬ edge.IsDiag →
    (Even ((edges first).count edge) ↔ Even ((edges second).count edge))

theorem SameEdges.insideRings_eq {first second : List (List (Point ℝ))}
    (hsame : SameEdges first second) (point : Point ℝ) :
    insideRings first point = insideRings second point := by
  classical
  rw [Bool.eq_iff_iff, insideRings_iff_odd, insideRings_iff_odd, ← Nat.not_even_iff_odd,
    ← Nat.not_even_iff_odd]
  exact not_congr (even_countP_congr fun edge hcrosses ↦
    hsame edge (not_isDiag_of_edgeCrosses hcrosses))

/-- Edges that change nothing inside: none, one between equal points, or one twice. -/
inductive IdleEdges : List (Sym2 (Point ℝ)) → Prop where
  | none : IdleEdges []
  | loop (vertex : Point ℝ) : IdleEdges [s(vertex, vertex)]
  | twice (edge : Sym2 (Point ℝ)) : IdleEdges [edge, edge]

open Classical in
theorem IdleEdges.even_count {added : List (Sym2 (Point ℝ))} (hadded : IdleEdges added)
    {edge : Sym2 (Point ℝ)} (hedge : ¬ edge.IsDiag) : Even (added.count edge) := by
  cases hadded with
  | none => exact Even.zero
  | loop vertex =>
    have hnot : edge ∉ [s(vertex, vertex)] := fun hmem ↦ hedge (List.mem_singleton.mp hmem ▸ rfl)
    exact (List.count_eq_zero.mpr hnot).symm ▸ Even.zero
  | twice other =>
    rw [List.count_cons, List.count_cons, List.count_nil, zero_add]
    exact ⟨_, rfl⟩

/-- Rings can be exchanged for others with the same edges and idle ones. -/
theorem IdleEdges.sameEdges {added : List (Sym2 (Point ℝ))} (hadded : IdleEdges added)
    (first second rings : List (List (Point ℝ)))
    (hperm : (edges second).Perm (added ++ edges first)) :
    SameEdges (first ++ rings) (second ++ rings) := by
  classical
  intro edge hedge
  unfold edges at hperm ⊢
  rw [List.flatMap_append, List.flatMap_append, List.count_append, List.count_append,
    hperm.count_eq, List.count_append, Nat.even_add, Nat.even_add, Nat.even_add]
  simp only [hadded.even_count hedge, true_iff]

/-! ### Redrawing -/

/-- The first rings are drawn in another way as the second. -/
inductive Redraws : List (List (Point ℝ)) → List (List (Point ℝ)) → Prop where
  /-- A ring begins with another of its vertices. -/
  | rotate {ring other : List (Point ℝ)} (hrotated : ring ~r other)
      (rings : List (List (Point ℝ))) : Redraws (ring :: rings) (other :: rings)
  /-- A ring goes round the other way. -/
  | reverse (ring : List (Point ℝ)) (rings : List (List (Point ℝ))) :
      Redraws (ring :: rings) (ring.reverse :: rings)
  /-- A ring ends with the vertex it begins with. -/
  | close (first : Point ℝ) (rest : List (Point ℝ)) (rings : List (List (Point ℝ))) :
      Redraws ((first :: rest) :: rings) ((first :: rest ++ [first]) :: rings)
  /-- The rings come in another order. -/
  | reorder {first second : List (List (Point ℝ))} (hperm : first.Perm second) :
      Redraws first second
  /-- A ring is split into two along the chord between its first vertex and another. -/
  | split (first : Point ℝ) (left : List (Point ℝ)) (second : Point ℝ) (right : List (Point ℝ))
      (rings : List (List (Point ℝ))) :
      Redraws ((first :: left ++ second :: right) :: rings)
        ((first :: left ++ [second]) :: (second :: right ++ [first]) :: rings)
  /-- Two rings become one, which goes round the first, over a bridge, round the second and back. -/
  | join (first : Point ℝ) (outer : List (Point ℝ)) (second : Point ℝ) (inner : List (Point ℝ))
      (rings : List (List (Point ℝ))) :
      Redraws ((first :: outer) :: (second :: inner) :: rings)
        ((first :: outer ++ first :: second :: inner ++ [second]) :: rings)

/-- Redrawing keeps the edges. -/
theorem Redraws.sameEdges {first second : List (List (Point ℝ))} (hredraws : Redraws first second) :
    SameEdges first second := by
  cases hredraws with
  | @rotate ring other hrotated rings =>
    refine IdleEdges.none.sameEdges [ring] [other] rings ?_
    simpa [edges] using (ringEdges_perm_of_isRotated hrotated).symm
  | reverse ring rings =>
    refine IdleEdges.none.sameEdges [ring] [ring.reverse] rings ?_
    simpa [edges] using ringEdges_reverse_perm ring
  | close first rest rings =>
    refine (IdleEdges.loop first).sameEdges [first :: rest] [first :: rest ++ [first]] rings ?_
    simpa [edges] using (ringEdges_concat_perm first rest first).trans
      ((ringEdges_cons_perm first rest).symm.cons _)
  | reorder hperm =>
    classical
    exact fun edge _ ↦ iff_of_eq (congrArg Even ((hperm.flatMap_right _).count_eq edge))
  | split first left second right rings =>
    refine (IdleEdges.twice s(first, second)).sameEdges [first :: left ++ second :: right]
      [first :: left ++ [second], second :: right ++ [first]] rings ?_
    simpa [edges] using ringEdges_split_perm first left second right
  | join first outer second inner rings =>
    refine (IdleEdges.twice s(first, second)).sameEdges [first :: outer, second :: inner]
      [first :: outer ++ first :: second :: inner ++ [second]] rings ?_
    simpa [edges] using ringEdges_join_perm first outer second inner

/-- Rings are inside out by their edges. Two lists of rings, of any number and lengths, have the
same points inside if each edge between different points occurs in both with the same parity. So do
rings that are redrawn any number of times, in either direction: with other first vertices, the
other way round, with the first vertex repeated at the end, in another order, split along chords or
joined by bridges. And of two rings, just the points inside one of them are inside, so that a ring
within another is a hole, whether the two are drawn apart or as one ring that goes over a bridge
twice. -/
theorem insideRings_of_edges (point : Point ℝ) :
    (∀ first second : List (List (Point ℝ)), SameEdges first second →
      insideRings first point = insideRings second point) ∧
    (∀ first second : List (List (Point ℝ)), Relation.EqvGen Redraws first second →
      insideRings first point = insideRings second point) ∧
    ∀ (first : Point ℝ) (outer : List (Point ℝ)) (second : Point ℝ) (inner : List (Point ℝ)),
      let joined := first :: outer ++ first :: second :: inner ++ [second]
      insideRings [first :: outer, second :: inner] point =
          (insideRings [first :: outer] point ^^ insideRings [second :: inner] point) ∧
        insideRings [joined] point =
          (insideRings [first :: outer] point ^^ insideRings [second :: inner] point) := by
  refine ⟨fun first second hsame ↦ hsame.insideRings_eq point, fun first second hredrawn ↦ ?_,
    fun first outer second inner ↦ ?_⟩
  · induction hredrawn with
    | rel first second hredraws => exact hredraws.sameEdges.insideRings_eq point
    | refl => rfl
    | symm _ _ _ ih => exact ih.symm
    | trans _ _ _ _ _ hfirst hsecond => exact hfirst.trans hsecond
  · have htwo := insideRings_append [first :: outer] [second :: inner] point
    have hjoined := (Redraws.join first outer second inner []).sameEdges.insideRings_eq point
    exact ⟨htwo, hjoined ▸ htwo⟩

/-- A square with a square hole, drawn as two rings, as the same rings with the hole first and the
other way round, and as one ring with a bridge. -/
theorem insideRings_of_edges_hole :
    let outer : List (Point ℝ) := [⟨0, 0⟩, ⟨30, 0⟩, ⟨30, 30⟩, ⟨0, 30⟩]
    let inner : List (Point ℝ) := [⟨10, 10⟩, ⟨20, 10⟩, ⟨20, 20⟩, ⟨10, 20⟩]
    let joined := outer ++ ⟨0, 0⟩ :: inner ++ [⟨10, 10⟩]
    SameEdges [outer, inner] [joined] ∧
      Relation.EqvGen Redraws [inner.reverse, outer] [joined] ∧
      insideRings [outer, inner] ⟨5, 5⟩ = insideRings [joined] ⟨5, 5⟩ ∧
      insideRings [inner.reverse, outer] ⟨15, 15⟩ = insideRings [joined] ⟨15, 15⟩ ∧
      insideRings [joined] ⟨5, 5⟩ = true ∧ insideRings [joined] ⟨15, 15⟩ = false := by
  intro outer inner joined
  have hjoin : Redraws [outer, inner] [joined] := .join _ _ _ _ []
  have hsame : SameEdges [outer, inner] [joined] := hjoin.sameEdges
  have hredrawn : Relation.EqvGen Redraws [inner.reverse, outer] [joined] :=
    .trans _ _ _ (.symm _ _ (.rel _ _ (.reverse inner [outer])))
      (.trans _ _ _ (.rel _ _ (.reorder (List.Perm.swap outer inner []))) (.rel _ _ hjoin))
  refine ⟨hsame, hredrawn, (insideRings_of_edges ⟨5, 5⟩).1 _ _ hsame,
    (insideRings_of_edges ⟨15, 15⟩).2.1 _ _ hredrawn, ?_, ?_⟩
  · norm_num [joined, outer, inner, insideRings, ringSides, rayCrosses, List.countP_cons]
  · norm_num [joined, outer, inner, insideRings, ringSides, rayCrosses, List.countP_cons]

end LabelledMap
