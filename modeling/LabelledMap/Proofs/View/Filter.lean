import LabelledMap.View.Filter
import Mathlib.Data.List.Forall2
import Mathlib.Data.List.Nodup
import Mathlib.Tactic.SplitIfs

/-!
# Filters that get more rows

A section or a row is changed where it is first found (`changeFirst`), and where names differ that
is the only one there is (`changeFirst_eq_map`). Without such a row toggling does nothing and
answers nothing (`FilterPanel.toggle_of_row?_eq_none`).

One panel extends another (`FilterPanel.Extends`) if it has the same sections with the same rows in
the same state, followed by rows that were not there and are checked. A row that does not exist
filters nothing, and a new row is checked, so a panel that extends another filters the same
(`FilterPanel.Extends.isEnabled_eq`).

A row that did not exist extends the panel. The panel then has gained the row
(`FilterPanel.Gains`), as it has by nothing being done where there is a row of that name
(`FilterPanel.Gains.of_mem`): what was done is told by the rows of its sections
(`FilterPanel.rows`).
-/

set_option autoImplicit false

namespace LabelledMap

/-! ### Changing the first item of a key -/

section ChangeFirst

variable {ι : Type}

theorem changeFirst_cons (condition : ι → Bool) (change : ι → ι) (item : ι) (items : List ι) :
    changeFirst condition change (item :: items) =
      if condition item then change item :: items
      else item :: changeFirst condition change items := by
  unfold changeFirst
  rw [List.findIdx_cons]
  cases condition item <;> rfl

/-- Items are related to those after the change if the item that is found is related to what it is
changed to. -/
theorem forall₂_changeFirst {relation : ι → ι → Prop} (hrefl : ∀ item, relation item item)
    {condition : ι → Bool} {change : ι → ι} {items : List ι}
    (hfound : ∀ item, items.find? condition = some item → relation item (change item)) :
    List.Forall₂ relation items (changeFirst condition change items) := by
  induction items with
  | nil => exact List.Forall₂.nil
  | cons item items ih =>
    rw [changeFirst_cons]
    split_ifs with hitem
    · exact List.Forall₂.cons (hfound item (List.find?_cons_of_pos hitem))
        (List.forall₂_same.mpr fun other _ ↦ hrefl other)
    · refine List.Forall₂.cons (hrefl item) (ih fun other hother ↦ hfound other ?_)
      rwa [List.find?_cons_of_neg hitem]

/-- Nothing changes if the item that is found stays as it is, or if none is found. -/
theorem changeFirst_eq_self {condition : ι → Bool} {change : ι → ι} {items : List ι}
    (hfound : ∀ item, items.find? condition = some item → change item = item) :
    changeFirst condition change items = items := by
  have hsame : List.Forall₂ (· = ·) items (changeFirst condition change items) :=
    forall₂_changeFirst (fun _ ↦ rfl) fun item hitem ↦ (hfound item hitem).symm
  rw [List.forall₂_eq_eq_eq] at hsame
  exact hsame.symm

variable (key : ι → String) (change : ι → ι) (hkey : ∀ item, key (change item) = key item)

include hkey

theorem map_key_changeFirst (items : List ι) (target : String) :
    (changeFirst (key · == target) change items).map key = items.map key := by
  induction items with
  | nil => rfl
  | cons item items ih =>
    rw [changeFirst_cons]
    split_ifs
    · rw [List.map_cons, hkey, List.map_cons]
    · rw [List.map_cons, ih, List.map_cons]

/-- An item is found changed if it is searched by the key that was changed. -/
theorem find_changeFirst (items : List ι) (target other : String) :
    (changeFirst (key · == target) change items).find? (key · == other) =
      (items.find? (key · == other)).map fun item ↦
        if other = target then change item else item := by
  induction items with
  | nil => rfl
  | cons item items ih =>
    rw [changeFirst_cons]
    by_cases hother : key item = other
    · subst hother
      by_cases htarget : key item = target
      · simp [htarget, hkey]
      · simp [htarget]
    · by_cases htarget : key item = target
      · have hne : other ≠ target := fun hsame ↦ hother (htarget.trans hsame.symm)
        simp [htarget, hkey, hne, hne.symm]
      · simp [htarget, hother, ih]

/-- Changing the item of one key twice leaves all items, if twice the change is none. -/
theorem changeFirst_involutive (hchange : ∀ item, change (change item) = item) (items : List ι)
    (target : String) :
    changeFirst (key · == target) change (changeFirst (key · == target) change items) = items := by
  induction items with
  | nil => rfl
  | cons item items ih =>
    rw [changeFirst_cons]
    split_ifs with hitem
    · rw [changeFirst_cons, hkey, if_pos hitem, hchange]
    · rw [changeFirst_cons, if_neg hitem, ih]

/-- Changing the items of two keys, it does not matter which is changed first if that does not
matter for an item that is changed in both ways. -/
theorem changeFirst_comm (other : ι → ι) (hother : ∀ item, key (other item) = key item)
    (hcomm : ∀ item, other (change item) = change (other item)) (items : List ι)
    (target otherTarget : String) :
    changeFirst (key · == otherTarget) other (changeFirst (key · == target) change items) =
      changeFirst (key · == target) change (changeFirst (key · == otherTarget) other items) := by
  induction items with
  | nil => rfl
  | cons item items ih =>
    rw [changeFirst_cons, changeFirst_cons]
    by_cases htarget : key item == target
    · by_cases hitem : key item == otherTarget
      · simp only [changeFirst_cons, hkey, hother, htarget, hitem, if_true, hcomm]
      · simp only [changeFirst_cons, hkey, htarget, hitem, if_true, if_false, Bool.false_eq_true]
    · by_cases hitem : key item == otherTarget
      · simp only [changeFirst_cons, hother, htarget, hitem, if_true, if_false, Bool.false_eq_true]
      · simp only [changeFirst_cons, htarget, hitem, if_false, Bool.false_eq_true, ih]

omit hkey

/-- Of items with different keys the first one of a key is the only one. -/
theorem changeFirst_eq_map {items : List ι} (hkeys : (items.map key).Nodup) (target : String) :
    changeFirst (key · == target) change items =
      items.map fun item ↦ if key item = target then change item else item := by
  rw [List.Nodup, List.pairwise_map] at hkeys
  induction items with
  | nil => rfl
  | cons item items ih =>
    obtain ⟨hfirst, hrest⟩ := List.pairwise_cons.mp hkeys
    rw [changeFirst_cons, List.map_cons]
    by_cases hitem : key item = target
    · have hkept : items.map (fun other ↦ if key other = target then change other else other) =
          items := by
        refine (List.map_congr_left fun other hother ↦ if_neg fun hagain ↦ ?_).trans
          (List.map_id _)
        exact hfirst other hother (hitem.trans hagain.symm)
      rw [if_pos (beq_iff_eq.mpr hitem), if_pos hitem, hkept]
    · rw [if_neg (mt beq_iff_eq.mp hitem), if_neg hitem, ih hrest]

/-- Of items with different keys none of a key is left once the first is away. -/
theorem eraseP_eq_filter {items : List ι} (hkeys : (items.map key).Nodup) (target : String) :
    items.eraseP (key · == target) = items.filter (key · != target) := by
  rw [List.Nodup, List.pairwise_map] at hkeys
  induction items with
  | nil => rfl
  | cons item items ih =>
    obtain ⟨hfirst, hrest⟩ := List.pairwise_cons.mp hkeys
    by_cases hitem : key item = target
    · have hkept : items.filter (key · != target) = items :=
        List.filter_eq_self.mpr fun other hother ↦
          bne_iff_ne.mpr fun hagain ↦ hfirst other hother (hitem.trans hagain.symm)
      simp [hitem, hkept]
    · simp [hitem, ih hrest]

end ChangeFirst

/-! ### Sections -/

namespace FilterSection

variable {part next last : FilterSection}

theorem row?_toggle (part : FilterSection) (row other : String) :
    (part.toggle row).row? other = (part.row? other).map fun found ↦
      if other = row then found.turned else found :=
  find_changeFirst FilterRow.id FilterRow.turned (fun _ ↦ rfl) part.rows row other

theorem toggle_toggle (part : FilterSection) (row : String) :
    (part.toggle row).toggle row = part := by
  refine congrArg (mk part.id part.title) ?_
  refine changeFirst_involutive FilterRow.id FilterRow.turned (fun _ ↦ rfl) (fun found ↦ ?_)
    part.rows row
  simp only [FilterRow.turned, Bool.not_not]

theorem toggle_comm (part : FilterSection) (row other : String) :
    (part.toggle row).toggle other = (part.toggle other).toggle row :=
  congrArg (mk part.id part.title)
    (changeFirst_comm FilterRow.id FilterRow.turned (fun _ ↦ rfl) FilterRow.turned (fun _ ↦ rfl)
      (fun _ ↦ rfl) part.rows row other)

/-- There is nothing to toggle in a row that does not exist. -/
theorem toggle_of_row?_eq_none {part : FilterSection} {row : String}
    (habsent : part.row? row = none) : part.toggle row = part := by
  refine congrArg (mk part.id part.title) (changeFirst_eq_self fun found hfound ↦ ?_)
  exact absurd (habsent.symm.trans hfound) nofun

/-- A row that does not exist is added at the end. -/
theorem rows_add_of_absent {row : String} (habsent : part.row? row = none) (text : String)
    (colour : Option String) :
    (part.add row text colour).rows = part.rows ++ [⟨row, text, colour, true⟩] := by
  unfold add
  rw [List.eraseP_of_forall_not (List.find?_eq_none.mp habsent)]

/-- The same section with more rows, which were not there and are checked. -/
structure Extends (part next : FilterSection) : Prop where
  id : next.id = part.id
  title : next.title = part.title
  rows : ∃ added, next.rows = part.rows ++ added ∧
    ∀ row ∈ added, row.checked = true ∧ part.row? row.id = none

theorem Extends.refl (part : FilterSection) : part.Extends part where
  id := rfl
  title := rfl
  rows := ⟨[], by simp⟩

/-- A row that extending does not bring was not there before. -/
theorem Extends.row?_eq_none (hnext : part.Extends next) {row : String}
    (habsent : next.row? row = none) : part.row? row = none := by
  obtain ⟨added, hrows, -⟩ := hnext.rows
  unfold row? at habsent ⊢
  rw [hrows, List.find?_append, Option.or_eq_none_iff] at habsent
  exact habsent.1

theorem Extends.trans (hnext : part.Extends next) (hlast : next.Extends last) :
    part.Extends last where
  id := hlast.id.trans hnext.id
  title := hlast.title.trans hnext.title
  rows := by
    obtain ⟨first, hfirst, hfirstNew⟩ := hnext.rows
    obtain ⟨second, hsecond, hsecondNew⟩ := hlast.rows
    refine ⟨first ++ second, by rw [hsecond, hfirst, List.append_assoc], fun row hrow ↦ ?_⟩
    rcases List.mem_append.mp hrow with hold | hnew
    · exact hfirstNew row hold
    · exact ⟨(hsecondNew row hnew).1, hnext.row?_eq_none (hsecondNew row hnew).2⟩

/-- A row is as before, or it is new and checked. -/
theorem Extends.row?_cases (hnext : part.Extends next) (row : String) :
    next.row? row = part.row? row ∨
      part.row? row = none ∧ ∃ found, next.row? row = some found ∧ found.checked = true := by
  obtain ⟨added, hrows, hnew⟩ := hnext.rows
  have hlookup : next.row? row = (part.row? row).or (added.find? (·.id == row)) := by
    unfold row?
    rw [hrows, List.find?_append]
  cases hold : part.row? row with
  | some found =>
    rw [hlookup, hold]
    exact Or.inl rfl
  | none =>
    rw [hold, Option.none_or] at hlookup
    cases hfound : added.find? (·.id == row) with
    | none => exact Or.inl (hlookup.trans hfound)
    | some found =>
      have hchecked := (hnew found (List.mem_of_find?_eq_some hfound)).1
      exact Or.inr ⟨rfl, found, hlookup.trans hfound, hchecked⟩

/-- Adding a row that does not exist extends the section. -/
theorem extends_add {row : String} (habsent : part.row? row = none) (text : String)
    (colour : Option String) : part.Extends (part.add row text colour) where
  id := rfl
  title := rfl
  rows := by
    refine ⟨[⟨row, text, colour, true⟩], rows_add_of_absent habsent text colour, ?_⟩
    intro found hfound
    obtain rfl := List.mem_singleton.mp hfound
    exact ⟨rfl, habsent⟩

end FilterSection

/-! ### Panels -/

namespace FilterPanel

variable {panel next last : FilterPanel}

/-- The names of the sections. -/
def ids (panel : FilterPanel) : List String := panel.sections.map (·.id)

/-- The rows of a section; a section that does not exist has none. -/
def rows (panel : FilterPanel) (part : String) : List FilterRow :=
  ((panel.section? part).map (·.rows)).getD []

theorem row?_eq_find? (panel : FilterPanel) (part row : String) :
    panel.row? part row = (panel.rows part).find? (·.id == row) := by
  unfold row? rows
  cases panel.section? part <;> rfl

/-- The rows that are found are those of the section. -/
theorem isSome_row?_iff (panel : FilterPanel) (part row : String) :
    (panel.row? part row).isSome ↔ row ∈ (panel.rows part).map (·.id) := by
  unfold row? rows
  cases panel.section? part with
  | none => simp
  | some found =>
    rw [Option.bind_some, FilterSection.row?, List.find?_isSome]
    simp

theorem section?_modify (panel : FilterPanel) (part : String)
    (change : FilterSection → FilterSection) (hchange : ∀ found, (change found).id = found.id)
    (other : String) :
    (panel.modify part change).section? other = (panel.section? other).map fun found ↦
      if other = part then change found else found :=
  find_changeFirst FilterSection.id change hchange panel.sections part other

theorem ids_modify (panel : FilterPanel) (part : String) (change : FilterSection → FilterSection)
    (hchange : ∀ found, (change found).id = found.id) :
    (panel.modify part change).ids = panel.ids :=
  map_key_changeFirst FilterSection.id change hchange panel.sections part

/-- Toggling a row that does not exist answers nothing and does nothing. -/
theorem toggle_of_row?_eq_none {part row : String} (habsent : panel.row? part row = none) :
    panel.toggle part row = (none, panel) := by
  unfold toggle
  rw [habsent]

/-- Toggling answers whether the row is checked then. -/
theorem toggle_fst (panel : FilterPanel) (part row : String) :
    (panel.toggle part row).1 = (panel.checked? part row).map (!·) := by
  unfold toggle checked?
  cases panel.row? part row <;> rfl

/-- Toggling changes the section of the row, which it leaves if there is no such row. -/
theorem toggle_snd (panel : FilterPanel) (part row : String) :
    (panel.toggle part row).2 = panel.modify part (·.toggle row) := by
  unfold toggle
  cases hrow : panel.row? part row with
  | some found => rfl
  | none =>
    refine congrArg mk (changeFirst_eq_self fun found hfound ↦ ?_).symm
    have hsection : panel.section? part = some found := hfound
    rw [row?, hsection, Option.bind_some] at hrow
    exact FilterSection.toggle_of_row?_eq_none hrow

/-- Toggling turns a row over and leaves the others. -/
theorem row?_toggle (panel : FilterPanel) (part row otherPart other : String) :
    (panel.toggle part row).2.row? otherPart other = (panel.row? otherPart other).map fun found ↦
      if otherPart = part ∧ other = row then found.turned else found := by
  unfold row?
  rw [toggle_snd, section?_modify panel part (·.toggle row) fun _ ↦ rfl]
  cases panel.section? otherPart with
  | none => rfl
  | some found =>
    simp only [Option.map_some, Option.bind_some]
    by_cases hpart : otherPart = part
    · simp only [hpart, ↓reduceIte, FilterSection.row?_toggle, true_and]
    · simp [hpart]

theorem checked?_toggle (panel : FilterPanel) (part row otherPart other : String) :
    (panel.toggle part row).2.checked? otherPart other =
      if otherPart = part ∧ other = row then (panel.checked? otherPart other).map (!·)
      else panel.checked? otherPart other := by
  unfold checked?
  rw [row?_toggle]
  split_ifs
  · rw [Option.map_map, Option.map_map]
    rfl
  · rw [Option.map_id']

/-- Changing a section leaves the rows of the others. -/
theorem rows_modify_of_ne (panel : FilterPanel) {part other : String}
    (change : FilterSection → FilterSection) (hchange : ∀ found, (change found).id = found.id)
    (hother : other ≠ part) : (panel.modify part change).rows other = panel.rows other := by
  unfold rows
  rw [section?_modify panel part change hchange]
  cases panel.section? other with
  | none => rfl
  | some found => simp [hother]

/-- Toggling turns over the row of that name and keeps what stands in the rows. Assumes: no two rows
of the section have the same name. -/
theorem rows_toggle {panel : FilterPanel} {other : String}
    (hrows : ((panel.rows other).map (·.id)).Nodup) (part row : String) :
    (panel.toggle part row).2.rows other = (panel.rows other).map fun found ↦
      if other = part ∧ found.id = row then found.turned else found := by
  rw [toggle_snd]
  by_cases hother : other = part
  · unfold rows at hrows ⊢
    rw [section?_modify panel part (·.toggle row) fun _ ↦ rfl]
    cases hfound : panel.section? other with
    | none => rfl
    | some found =>
      rw [hfound] at hrows
      have hturned : (found.toggle row).rows =
          found.rows.map fun item ↦ if item.id = row then item.turned else item :=
        changeFirst_eq_map FilterRow.id FilterRow.turned hrows row
      simp [hother, hturned]
  · rw [rows_modify_of_ne panel (·.toggle row) (fun _ ↦ rfl) hother]
    simp [hother]

/-- There is a section of each name. -/
theorem isSome_section?_of_mem {part : String} (hpart : part ∈ panel.ids) :
    (panel.section? part).isSome := by
  obtain ⟨found, hfound, rfl⟩ := List.mem_map.mp hpart
  exact List.find?_isSome.mpr ⟨found, hfound, beq_self_eq_true _⟩

/-- A section is found by its name if no two have the same. -/
theorem section?_eq_some_of_mem {part : FilterSection} (hids : panel.ids.Nodup)
    (hpart : part ∈ panel.sections) : panel.section? part.id = some part := by
  unfold ids at hids
  unfold section?
  rw [List.Nodup, List.pairwise_map] at hids
  generalize panel.sections = sections at hids hpart
  induction sections with
  | nil => cases hpart
  | cons first rest ih =>
    obtain ⟨hfirst, hrest⟩ := List.pairwise_cons.mp hids
    rw [List.find?_cons]
    rcases List.mem_cons.mp hpart with rfl | hlater
    · simp
    · rw [beq_false_of_ne (hfirst part hlater)]
      exact ih hrest hlater

theorem toggle_toggle (panel : FilterPanel) (part row : String) :
    ((panel.toggle part row).2.toggle part row).2 = panel := by
  rw [toggle_snd, toggle_snd]
  exact congrArg mk (changeFirst_involutive FilterSection.id (·.toggle row) (fun _ ↦ rfl)
    (fun found ↦ found.toggle_toggle row) panel.sections part)

theorem toggle_comm (panel : FilterPanel) (part row otherPart other : String) :
    ((panel.toggle part row).2.toggle otherPart other).2 =
      ((panel.toggle otherPart other).2.toggle part row).2 := by
  simp only [toggle_snd]
  exact congrArg mk (changeFirst_comm FilterSection.id (·.toggle row) (fun _ ↦ rfl) (·.toggle other)
    (fun _ ↦ rfl) (fun found ↦ found.toggle_comm row other) panel.sections part otherPart)

/-- The same panel with more rows, which were not there and are checked. -/
def Extends (panel next : FilterPanel) : Prop :=
  List.Forall₂ FilterSection.Extends panel.sections next.sections

theorem Extends.refl (panel : FilterPanel) : panel.Extends panel :=
  List.forall₂_same.mpr fun part _ ↦ FilterSection.Extends.refl part

theorem Extends.trans (hnext : panel.Extends next) (hlast : next.Extends last) :
    panel.Extends last := by
  unfold Extends at hnext hlast ⊢
  generalize panel.sections = first at hnext
  generalize next.sections = second at hnext hlast
  generalize last.sections = third at hlast
  induction hnext generalizing third with
  | nil =>
    cases hlast
    exact List.Forall₂.nil
  | cons hpart _ ih =>
    cases hlast with
    | cons hlastPart hlastRest =>
      exact List.Forall₂.cons (hpart.trans hlastPart) (ih _ hlastRest)

/-- The sections keep their names and order. -/
theorem Extends.ids_eq (hnext : panel.Extends next) : next.ids = panel.ids := by
  unfold Extends at hnext
  unfold ids
  generalize panel.sections = first, next.sections = second at hnext
  induction hnext with
  | nil => rfl
  | cons hpart _ ih => rw [List.map_cons, List.map_cons, hpart.id, ih]

/-- A section that is found extends the one that was found before. -/
theorem Extends.section?_cases (hnext : panel.Extends next) (part : String) :
    panel.section? part = none ∧ next.section? part = none ∨
      ∃ old new, panel.section? part = some old ∧ next.section? part = some new ∧
        old.Extends new := by
  unfold Extends at hnext
  unfold section?
  generalize panel.sections = first, next.sections = second at hnext
  induction hnext with
  | nil => exact Or.inl ⟨rfl, rfl⟩
  | @cons old new _ _ hpart _ ih =>
    rw [List.find?_cons, List.find?_cons, hpart.id]
    cases old.id == part with
    | false => exact ih
    | true => exact Or.inr ⟨old, new, rfl, rfl, hpart⟩

/-- Panels that extend one another filter the same. -/
theorem Extends.isEnabled_eq (hnext : panel.Extends next) (part row : String) :
    next.isEnabled part row = panel.isEnabled part row := by
  unfold isEnabled checked? row?
  rcases hnext.section?_cases part with ⟨hold, hnew⟩ | ⟨old, new, hold, hnew, hpart⟩
  · rw [hold, hnew]
  · rw [hold, hnew, Option.bind_some, Option.bind_some]
    rcases hpart.row?_cases row with hsame | ⟨hnone, found, hfound, hchecked⟩
    · rw [hsame]
    · rw [hnone, hfound, Option.map_some, hchecked]
      rfl

/-- The rows of a section are followed by rows that were not there and are checked. -/
theorem Extends.rows_eq (hnext : panel.Extends next) (part : String) :
    ∃ added, next.rows part = panel.rows part ++ added ∧
      ∀ row ∈ added, row.checked = true ∧ row.id ∉ (panel.rows part).map (·.id) := by
  unfold rows
  rcases hnext.section?_cases part with ⟨hold, hnew⟩ | ⟨old, new, hold, hnew, hpart⟩
  · rw [hold, hnew]
    exact ⟨[], by simp⟩
  · obtain ⟨added, hrows, hadded⟩ := hpart.rows
    rw [hold, hnew]
    refine ⟨added, hrows, fun row hrow ↦ ⟨(hadded row hrow).1, fun hmem ↦ ?_⟩⟩
    obtain ⟨other, hother, hsame⟩ := List.mem_map.mp hmem
    have habsent := List.find?_eq_none.mp (hadded row hrow).2 other hother
    simp [hsame] at habsent

/-! ### Gaining a row -/

/-- Rows with one more at the end, unless there is one of that name. -/
def withRow (rows : List FilterRow) (row : FilterRow) : List FilterRow :=
  if row.id ∈ rows.map (·.id) then rows else rows ++ [row]

theorem mem_map_withRow {rows : List FilterRow} {row : FilterRow} {name : String} :
    name ∈ (withRow rows row).map (·.id) ↔ name ∈ rows.map (·.id) ∨ name = row.id := by
  unfold withRow
  split_ifs with hmem
  · exact ⟨Or.inl, fun hname ↦ hname.elim id fun hrow ↦ hrow ▸ hmem⟩
  · rw [List.map_append, List.mem_append, List.map_singleton, List.mem_singleton]

theorem nodup_map_withRow {rows : List FilterRow} (hrows : (rows.map (·.id)).Nodup)
    (row : FilterRow) : ((withRow rows row).map (·.id)).Nodup := by
  unfold withRow
  split_ifs with hmem
  · exact hrows
  · rw [List.map_append, List.map_singleton]
    exact List.nodup_append.mpr ⟨hrows, List.nodup_singleton _, fun name hname other hother ↦ by
      rw [List.mem_singleton.mp hother]
      exact fun hsame ↦ hmem (hsame ▸ hname)⟩

/-- The same panel with a row more in one section, unless the section has one of that name. -/
structure Gains (panel : FilterPanel) (part : String) (row : FilterRow) (next : FilterPanel) :
    Prop where
  rows : next.rows part = withRow (panel.rows part) row
  others : ∀ other, other ≠ part → next.rows other = panel.rows other
  whole : panel.Extends next

/-- A panel that has a row of that name has gained the row. -/
theorem Gains.of_mem {part : String} {row : FilterRow}
    (hrow : row.id ∈ (panel.rows part).map (·.id)) : panel.Gains part row panel where
  rows := (if_pos hrow).symm
  others _ _ := rfl
  whole := Extends.refl panel

/-- A row that does not exist is added, and the panel gains it. Assumes: the section exists. -/
theorem addRow_gains {part row : String} (hpart : part ∈ panel.ids)
    (habsent : row ∉ (panel.rows part).map (·.id)) (text : String) (colour : Option String) :
    ∃ next, panel.addRow part row text colour = .ok next ∧
      panel.Gains part ⟨row, text, colour, true⟩ next := by
  have hsection := isSome_section?_of_mem hpart
  obtain ⟨found, hfound⟩ := Option.isSome_iff_exists.mp hsection
  have hrow : found.row? row = none := by
    rw [← isSome_row?_iff, row?, hfound, Option.bind_some, Option.not_isSome_iff_eq_none] at habsent
    exact habsent
  refine ⟨panel.modify part (·.add row text colour), if_pos hsection, ?_, fun other hother ↦ ?_, ?_⟩
  · unfold withRow
    rw [if_neg habsent]
    unfold rows
    rw [section?_modify panel part (·.add row text colour) fun _ ↦ rfl, hfound]
    simpa using FilterSection.rows_add_of_absent hrow text colour
  · exact rows_modify_of_ne panel (·.add row text colour) (fun _ ↦ rfl) hother
  · refine forall₂_changeFirst FilterSection.Extends.refl fun item hitem ↦ ?_
    obtain rfl : found = item := Option.some.inj (hfound.symm.trans hitem)
    exact FilterSection.extends_add hrow text colour

end FilterPanel

end LabelledMap
