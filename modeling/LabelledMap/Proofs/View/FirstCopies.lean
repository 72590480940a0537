import Mathlib.Data.List.Basic
import Mathlib.Data.List.Nodup

/-!
# First copies

The items of a list with a key each, of which only the first with its key is kept (`firstCopies`).
Looking for a key finds the same item before and after (`find_firstCopies`), and the first copies of
two lists are those of the first list followed by those of what the second list has under other keys
(`firstCopies_append`).
-/

set_option autoImplicit false

namespace LabelledMap

variable {ι κ : Type} [DecidableEq κ] (key : ι → κ)

/-- The items whose key no item before them has. -/
def firstCopies (items : List ι) : List ι :=
  items.eraseDupsBy fun later first ↦ key later == key first

theorem firstCopies_cons (item : ι) (items : List ι) :
    firstCopies key (item :: items) =
      item :: firstCopies key (items.filter fun other ↦ key other ≠ key item) := by
  unfold firstCopies
  rw [List.eraseDupsBy_cons]
  congr 3
  funext other
  simp

/-- A property of all lists that a list has if it is left of it when the copies of its first item
are taken out. -/
theorem firstCopies_induction {motive : List ι → Prop} (nil : motive [])
    (cons : ∀ item items, motive (items.filter fun other ↦ key other ≠ key item) →
      motive (item :: items)) : ∀ items, motive items
  | [] => nil
  | item :: items => cons item items (firstCopies_induction nil cons _)
termination_by items => items.length
decreasing_by exact Nat.lt_succ_of_le (List.length_filter_le _ _)

theorem firstCopies_sublist (items : List ι) : (firstCopies key items).Sublist items := by
  induction items using firstCopies_induction key with
  | nil => exact List.Sublist.refl _
  | cons item items ih =>
    rw [firstCopies_cons]
    exact (ih.trans List.filter_sublist).cons_cons item

/-- The first copies of two lists after each other. -/
theorem firstCopies_append (items more : List ι) :
    firstCopies key (items ++ more) =
      firstCopies key items ++
        firstCopies key (more.filter fun other ↦ key other ∉ items.map key) := by
  induction items using firstCopies_induction key generalizing more with
  | nil => simp [firstCopies]
  | cons item items ih =>
    rw [List.cons_append, firstCopies_cons, firstCopies_cons, List.filter_append, ih,
      List.filter_filter, List.cons_append]
    congr 3
    refine List.filter_congr fun other _ ↦ ?_
    by_cases hother : key other = key item
    · simp [hother]
    · have hkept : key other ∈ (items.filter fun copy ↦ key copy ≠ key item).map key ↔
          key other ∈ items.map key := by
        simp only [List.mem_map, List.mem_filter, decide_eq_true_eq]
        constructor
        · rintro ⟨copy, ⟨hcopy, -⟩, hsame⟩
          exact ⟨copy, hcopy, hsame⟩
        · rintro ⟨copy, hcopy, hsame⟩
          exact ⟨copy, ⟨hcopy, hsame ▸ hother⟩, hsame⟩
      simp only [hkept, List.map_cons, List.mem_cons, hother, false_or, ne_eq, not_false_eq_true,
        decide_true, Bool.and_true]

/-- One more item is a first copy unless its key was there. -/
theorem firstCopies_concat (items : List ι) (item : ι) :
    firstCopies key (items ++ [item]) =
      firstCopies key items ++ if key item ∈ items.map key then [] else [item] := by
  rw [firstCopies_append, List.filter_cons, List.filter_nil]
  by_cases hknown : key item ∈ items.map key
  · rw [if_pos hknown, if_neg (by simpa only [decide_eq_true_eq, not_not] using hknown)]
    rfl
  · rw [if_neg hknown, if_pos (decide_eq_true hknown)]
    rfl

/-- Looking for a key finds the first copy. -/
theorem find_firstCopies (items : List ι) (wanted : κ) :
    (firstCopies key items).find? (key · == wanted) = items.find? (key · == wanted) := by
  induction items using firstCopies_induction key with
  | nil => rfl
  | cons item items ih =>
    rw [firstCopies_cons, List.find?_cons, List.find?_cons]
    cases hitem : key item == wanted with
    | true => rfl
    | false =>
      refine ih.trans ?_
      rw [List.find?_filter]
      congr 1
      funext other
      by_cases hother : key other = wanted
      · simp [hother, Ne.symm (beq_eq_false_iff_ne.mp hitem)]
      · simp [hother]

/-- The first copies have the keys that there are. -/
theorem mem_map_firstCopies (items : List ι) (wanted : κ) :
    wanted ∈ (firstCopies key items).map key ↔ wanted ∈ items.map key := by
  have hfind := congrArg Option.isSome (find_firstCopies key items wanted)
  rw [Bool.eq_iff_iff, List.find?_isSome, List.find?_isSome] at hfind
  simpa using hfind

/-- No two first copies have the same key. -/
theorem nodup_map_firstCopies (items : List ι) : ((firstCopies key items).map key).Nodup := by
  induction items using firstCopies_induction key with
  | nil => exact List.nodup_nil
  | cons item items ih =>
    rw [firstCopies_cons, List.map_cons, List.nodup_cons]
    refine ⟨fun hmem ↦ ?_, ih⟩
    rw [mem_map_firstCopies] at hmem
    obtain ⟨other, hother, hsame⟩ := List.mem_map.mp hmem
    simp [hsame] at hother

end LabelledMap
