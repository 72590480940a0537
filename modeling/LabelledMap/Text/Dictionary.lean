/-!
# Dictionaries

A dictionary holds at most one value for each key, in the order of the keys' code points. It is
given by its entries, and the order is part of the type, so that a dictionary is determined by what
`Dictionary.get?` finds. `Dictionary.insert` replaces the value of a key that is already there.
-/

set_option autoImplicit false

namespace LabelledMap

/-- Values under text keys, ordered by key. -/
@[ext]
structure Dictionary (ν : Type) where
  entries : List (String × ν)
  ordered : entries.Pairwise (fun entry later ↦ entry.1 < later.1)
deriving DecidableEq

namespace Dictionary

variable {ν : Type}

instance : EmptyCollection (Dictionary ν) := ⟨⟨[], List.Pairwise.nil⟩⟩

/-- The value of a key. -/
def get? (dictionary : Dictionary ν) (key : String) : Option ν := dictionary.entries.lookup key

/-- A list of entries with a value put at its place. -/
def insertEntry (key : String) (value : ν) : List (String × ν) → List (String × ν)
  | [] => [(key, value)]
  | entry :: rest =>
    if key < entry.1 then (key, value) :: entry :: rest
    else if key = entry.1 then (key, value) :: rest
    else entry :: insertEntry key value rest

theorem mem_insertEntry {key : String} {value : ν} {entries : List (String × ν)}
    {entry : String × ν} (hmem : entry ∈ insertEntry key value entries) :
    entry = (key, value) ∨ entry ∈ entries := by
  induction entries with
  | nil => exact .inl (List.mem_singleton.mp hmem)
  | cons first rest ih =>
    unfold insertEntry at hmem
    split at hmem
    · exact List.mem_cons.mp hmem
    · split at hmem
      · rcases List.mem_cons.mp hmem with heq | hrest
        · exact .inl heq
        · exact .inr (List.mem_cons_of_mem _ hrest)
      · rcases List.mem_cons.mp hmem with heq | hrest
        · exact .inr (heq ▸ List.mem_cons_self)
        · exact (ih hrest).imp_right (List.mem_cons_of_mem _)

theorem ordered_insertEntry {key : String} {value : ν} {entries : List (String × ν)}
    (hordered : entries.Pairwise (fun entry later ↦ entry.1 < later.1)) :
    (insertEntry key value entries).Pairwise (fun entry later ↦ entry.1 < later.1) := by
  induction entries with
  | nil => exact List.pairwise_singleton _ _
  | cons first rest ih =>
    rw [List.pairwise_cons] at hordered
    unfold insertEntry
    split
    · next hlt =>
      refine List.pairwise_cons.mpr ⟨fun entry hentry ↦ ?_, List.pairwise_cons.mpr hordered⟩
      rcases List.mem_cons.mp hentry with heq | hrest
      · exact heq ▸ hlt
      · exact String.lt_trans hlt (hordered.1 entry hrest)
    · next hnlt =>
      split
      · next heq =>
        exact List.pairwise_cons.mpr
          ⟨fun entry hentry ↦ heq ▸ hordered.1 entry hentry, hordered.2⟩
      · next hne =>
        refine List.pairwise_cons.mpr ⟨fun entry hentry ↦ ?_, ih hordered.2⟩
        rcases mem_insertEntry hentry with heq | hrest
        · have hle : first.1 ≤ key := String.not_lt.mp hnlt
          exact heq ▸ (Decidable.byContradiction fun hge ↦
            hne (String.le_antisymm (String.not_lt.mp hge) hle))
        · exact hordered.1 entry hrest

/-- The dictionary with a value under a key. -/
def insert (dictionary : Dictionary ν) (key : String) (value : ν) : Dictionary ν where
  entries := insertEntry key value dictionary.entries
  ordered := ordered_insertEntry dictionary.ordered

/-- The dictionary of some entries; the last value of a key counts. -/
def ofList (entries : List (String × ν)) : Dictionary ν :=
  entries.foldl (fun dictionary (key, value) ↦ dictionary.insert key value) ∅

end Dictionary

end LabelledMap
