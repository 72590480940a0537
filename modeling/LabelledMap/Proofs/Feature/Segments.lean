import LabelledMap.Feature.Anchor

/-!
# The segments of a path

A path has the segments up to one of its vertices and those from there (`segments_append_cons`), so
that what is added up or collected along a path can be taken apart at any vertex. A segment leads
from a vertex to the one after it (`exists_split_of_mem_segments`), and the reversed path has the
same segments in the other direction (`segments_reverse`).
-/

set_option autoImplicit false

namespace LabelledMap

variable {α : Type}

theorem segments_cons_cons (start stop : Point α) (rest : List (Point α)) :
    segments (start :: stop :: rest) = (start, stop) :: segments (stop :: rest) := rfl

/-- A segment of a path leads from a vertex to the one after it. -/
theorem exists_split_of_mem_segments {points : List (Point α)} {side : Point α × Point α}
    (hside : side ∈ segments points) :
    ∃ before after, points = before ++ side.1 :: side.2 :: after := by
  induction points with
  | nil => exact absurd hside List.not_mem_nil
  | cons first rest ih =>
    cases rest with
    | nil => exact absurd hside List.not_mem_nil
    | cons second rest =>
      rcases List.mem_cons.mp hside with rfl | hlater
      · exact ⟨[], rest, rfl⟩
      · obtain ⟨before, after, hsplit⟩ := ih hlater
        exact ⟨first :: before, after, congrArg (first :: ·) hsplit⟩

/-- A path can be taken apart at each of its vertices. -/
theorem segments_append_cons (before : List (Point α)) (vertex : Point α)
    (after : List (Point α)) :
    segments (before ++ vertex :: after) =
      segments (before ++ [vertex]) ++ segments (vertex :: after) := by
  induction before with
  | nil => rfl
  | cons first before ih =>
    cases before with
    | nil => rfl
    | cons second before =>
      simp only [List.cons_append, segments_cons_cons] at ih ⊢
      rw [ih]

theorem segments_reverse (points : List (Point α)) :
    segments points.reverse = ((segments points).map Prod.swap).reverse := by
  induction points with
  | nil => rfl
  | cons first rest ih =>
    cases rest with
    | nil => rfl
    | cons second rest =>
      have hsplit : (first :: second :: rest).reverse = rest.reverse ++ second :: [first] := by
        simp
      rw [hsplit, segments_append_cons, ← List.reverse_cons, ih, segments_cons_cons,
        segments_cons_cons first, List.map_cons, List.reverse_cons]
      rfl

end LabelledMap
