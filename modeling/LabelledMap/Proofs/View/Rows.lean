import LabelledMap.Proofs.View.Filter
import LabelledMap.View

/-!
# The rows of languages and categories

What the filter panel of a view is to show: each language under its number with its name and its
colour, one row for places without a name if there are any (`MapView.LanguageRows`), and each
category of a place (`MapView.CategoryRows`). A row that is added keeps the rows right, because no
two languages share a row (`MapView.languageRow_injective`) and none has that of unnamed places
(`MapView.unnamedRow_ne_languageRow`).
-/

set_option autoImplicit false

namespace LabelledMap.MapView

/-! ### Names of rows -/

/-- Each language has a row of its own. -/
theorem languageRow_injective {id other : LanguageId} (hrow : languageRow id = languageRow other) :
    id = other := by
  have hdigits : Nat.toDigits 10 id.toNat = Nat.toDigits 10 other.toNat := by
    rw [← Nat.toList_repr, ← Nat.toList_repr]
    exact congrArg String.toList hrow
  have hvalue := congrArg (Nat.ofDigitChars 10 · 0) hdigits
  simp only [Nat.ofDigitChars_ten_toDigits] at hvalue
  exact UInt64.toNat_inj.mp hvalue

/-- The row of places without a name is not that of a language. -/
theorem unnamedRow_ne_languageRow (id : LanguageId) : unnamedRow ≠ languageRow id := by
  intro hrow
  have hletter : 'u' ∈ (languageRow id).toList := by
    rw [← hrow]
    decide
  have hdigit : 'u' ∈ Nat.toDigits 10 id.toNat := Nat.toList_repr ▸ hletter
  have hisDigit := Nat.isDigit_of_mem_toDigits (by decide) (by decide) hdigit
  revert hisDigit
  decide

/-! ### What rows show -/

/-- The row of a language, or of places without a name, as it is added. -/
def rowOf : Option Language → FilterRow
  | some language => ⟨languageRow language.id, language.name, some language.colour, true⟩
  | none => ⟨unnamedRow, "Unknown", none, true⟩

/-- The rows show each language under its number, with its name and its colour, and if there are
unnamed places one row for these. -/
structure LanguageRows (rows : List FilterRow) (language? : LanguageId → Option Language)
    (unnamed : Prop) : Prop where
  nodup : (rows.map (·.id)).Nodup
  mem_iff : ∀ name, name ∈ rows.map (·.id) ↔
    (∃ id, (language? id).isSome ∧ name = languageRow id) ∨ name = unnamedRow ∧ unnamed
  shown : ∀ row ∈ rows, ∀ id, row.id = languageRow id →
    ∃ language, language? id = some language ∧ row.text = language.name ∧
      row.colour = some language.colour

/-- The rows show each category once. -/
structure CategoryRows (rows : List FilterRow) (categories : List String) : Prop where
  nodup : (rows.map (·.id)).Nodup
  mem_iff : ∀ name, name ∈ rows.map (·.id) ↔ name ∈ categories

section Rows

variable {rows : List FilterRow} {language? next? : LanguageId → Option Language}
  {unnamed unnamedNext : Prop} {categories : List String}

/-- A language has a row if it is known. -/
theorem LanguageRows.mem_languageRow_iff (hrows : LanguageRows rows language? unnamed)
    (id : LanguageId) : languageRow id ∈ rows.map (·.id) ↔ (language? id).isSome := by
  rw [hrows.mem_iff]
  constructor
  · rintro (⟨other, hother, hsame⟩ | ⟨hsame, -⟩)
    · exact languageRow_injective hsame ▸ hother
    · exact absurd hsame.symm (unnamedRow_ne_languageRow id)
  · exact fun hknown ↦ Or.inl ⟨id, hknown, rfl⟩

/-- No rows show that no language is known and no place unnamed. -/
theorem LanguageRows.nil (hlanguage : ∀ id, language? id = none) (hunnamed : ¬unnamed) :
    LanguageRows [] language? unnamed where
  nodup := List.nodup_nil
  mem_iff name := by simp [hlanguage, hunnamed]
  shown row hrow := by cases hrow

/-- The rows with that of a language show this language as well, unless they show another one under
its number. -/
theorem LanguageRows.addLanguage (hrows : LanguageRows rows language? unnamed) (language : Language)
    (hnext : ∀ id, next? id = (language? id).or ([language].find? (·.id == id))) :
    LanguageRows (FilterPanel.withRow rows (rowOf (some language))) next? unnamed where
  nodup := FilterPanel.nodup_map_withRow hrows.nodup _
  mem_iff name := by
    have hknown (id : LanguageId) :
        (next? id).isSome ↔ (language? id).isSome ∨ id = language.id := by
      rw [hnext, Option.isSome_or, Bool.or_eq_true, List.find?_isSome]
      simp only [List.mem_singleton, exists_eq_left, beq_iff_eq]
      exact or_congr Iff.rfl eq_comm
    rw [FilterPanel.mem_map_withRow, hrows.mem_iff, or_right_comm]
    simp only [hknown, or_and_right, exists_or, exists_eq_left, rowOf]
  shown row hrow id hid := by
    by_cases hmem : row ∈ rows
    · obtain ⟨known, hknown, hshown⟩ := hrows.shown row hmem id hid
      exact ⟨known, by rw [hnext, hknown, Option.some_or], hshown⟩
    · unfold FilterPanel.withRow at hrow
      split_ifs at hrow with hpresent
      · exact absurd hrow hmem
      · -- The row is the new one, so the language was not known before.
        obtain rfl : row = rowOf (some language) := by
          rcases List.mem_append.mp hrow with hold | hnew
          · exact absurd hold hmem
          · exact List.mem_singleton.mp hnew
        obtain rfl : language.id = id := languageRow_injective hid
        have hunknown : language? language.id = none := by
          rw [← Option.not_isSome_iff_eq_none, ← hrows.mem_languageRow_iff]
          exact hpresent
        exact ⟨language, by simp [hnext, hunknown], rfl, rfl⟩

/-- The rows with that of unnamed places show that there are some. -/
theorem LanguageRows.addUnnamed (hrows : LanguageRows rows language? unnamed) :
    LanguageRows (FilterPanel.withRow rows (rowOf none)) language? True where
  nodup := FilterPanel.nodup_map_withRow hrows.nodup _
  mem_iff name := by
    rw [FilterPanel.mem_map_withRow, hrows.mem_iff, or_assoc, and_true, rowOf,
      or_iff_right_of_imp And.left]
  shown row hrow id hid := by
    unfold FilterPanel.withRow at hrow
    split_ifs at hrow with hpresent
    · exact hrows.shown row hrow id hid
    · rcases List.mem_append.mp hrow with hold | hnew
      · exact hrows.shown row hold id hid
      · rw [List.mem_singleton.mp hnew] at hid
        exact absurd hid (unnamedRow_ne_languageRow id)

/-- Rows show the same languages whatever is done to them that keeps what stands in them. -/
theorem LanguageRows.map (hrows : LanguageRows rows language? unnamed)
    {change : FilterRow → FilterRow} (hid : ∀ row, (change row).id = row.id)
    (htext : ∀ row, (change row).text = row.text)
    (hcolour : ∀ row, (change row).colour = row.colour) :
    LanguageRows (rows.map change) language? unnamed where
  nodup := by simpa [Function.comp_def, hid] using hrows.nodup
  mem_iff := by simpa [Function.comp_def, hid] using hrows.mem_iff
  shown row hrow id hrowId := by
    obtain ⟨old, hold, rfl⟩ := List.mem_map.mp hrow
    rw [htext, hcolour]
    exact hrows.shown old hold id (hid old ▸ hrowId)

theorem CategoryRows.nil : CategoryRows [] [] where
  nodup := List.nodup_nil
  mem_iff _ := Iff.rfl

/-- The rows with that of a category show this category as well. -/
theorem CategoryRows.add (hrows : CategoryRows rows categories) (category : String) :
    CategoryRows (FilterPanel.withRow rows ⟨category, category, none, true⟩)
      (categories ++ [category]) where
  nodup := FilterPanel.nodup_map_withRow hrows.nodup _
  mem_iff name := by
    rw [FilterPanel.mem_map_withRow, hrows.mem_iff, List.mem_append, List.mem_singleton]

theorem CategoryRows.map (hrows : CategoryRows rows categories)
    {change : FilterRow → FilterRow} (hid : ∀ row, (change row).id = row.id) :
    CategoryRows (rows.map change) categories where
  nodup := by simpa [Function.comp_def, hid] using hrows.nodup
  mem_iff := by simpa [Function.comp_def, hid] using hrows.mem_iff

end Rows

end LabelledMap.MapView
