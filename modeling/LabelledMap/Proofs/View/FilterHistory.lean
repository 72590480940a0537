import LabelledMap.Proofs.View.Filter
import LabelledMap.Proofs.View.FirstCopies
import Mathlib.Algebra.Group.Nat.Even
import Mathlib.Data.List.Induction
import Mathlib.Data.List.Infix
import Mathlib.Data.List.TakeWhile

/-!
# What a filter panel has gone through

A panel is changed in place, and all that it shows can be read off the operations it has gone
through. `FilterPanel.sectionsAdded`, `FilterPanel.latestTitle` and `FilterPanel.rowsLeft` read
them without running them: a section is where it was first added, with the title it got last; a row
is where it was last added to a section that existed, unless it has been removed or cleared since,
and it is checked if it has been toggled an even number of times since. `FilterPanel.recorded` is
the panel that these make up.

Every operation does one thing to each section (`FilterPanel.Operation.change`), and may open a new
one (`FilterPanel.sections_apply`). This takes a panel in which names are not used twice
(`FilterPanel.Distinct`), since only the first section or row of a name is changed; the recorded
panel is one. What an operation does to a section is what one operation more does to the history
(`FilterPanel.rowsLeft_concat`), so a panel that was empty at first is always the recorded one
(`FilterPanel.run_eq_recorded`). What it answers follows from that
(`FilterPanel.panel_of_history`), since none of its rows has a namesake in its section.
-/

set_option autoImplicit false

namespace LabelledMap

/-! ### Dictionaries of different keys -/

namespace Dictionary

variable {ν : Type}

/-- A value under a new key is one entry more. -/
theorem mem_insert_iff {dictionary : Dictionary ν} {key : String}
    (hfresh : key ∉ dictionary.entries.map Prod.fst) (value : ν) (entry : String × ν) :
    entry ∈ (dictionary.insert key value).entries ↔
      entry ∈ dictionary.entries ∨ entry = (key, value) := by
  change entry ∈ insertEntry key value dictionary.entries ↔ _
  generalize dictionary.entries = entries at hfresh
  induction entries with
  | nil => simp [insertEntry]
  | cons first rest ih =>
    rw [List.map_cons, List.mem_cons, not_or] at hfresh
    rw [insertEntry, if_neg hfresh.1]
    split_ifs
    · simp only [List.mem_cons, or_comm]
    · rw [List.mem_cons, ih hfresh.2, List.mem_cons, or_assoc]

/-- A dictionary of entries under different keys has these entries. -/
theorem mem_ofList_iff {entries : List (String × ν)} (hnodup : (entries.map Prod.fst).Nodup)
    (entry : String × ν) : entry ∈ (ofList entries).entries ↔ entry ∈ entries := by
  induction entries using List.reverseRecOn generalizing entry with
  | nil => exact Iff.rfl
  | append_singleton entries last ih =>
    rw [List.map_append, List.nodup_append] at hnodup
    obtain ⟨hentries, -, hlast⟩ := hnodup
    have hfresh : last.1 ∉ (ofList entries).entries.map Prod.fst := by
      intro hknown
      obtain ⟨other, hother, hsame⟩ := List.mem_map.mp hknown
      have hmem := List.mem_map_of_mem (f := Prod.fst) ((ih hentries other).mp hother)
      exact hlast _ hmem last.1 (by simp) hsame
    have hinsert : ofList (entries ++ [last]) = (ofList entries).insert last.1 last.2 := by
      unfold ofList
      rw [List.foldl_append]
      rfl
    rw [hinsert, mem_insert_iff hfresh, ih hentries, List.mem_append, List.mem_singleton]

end Dictionary

namespace FilterPanel

/-! ### Operations -/

/-- A call that may change a panel. -/
inductive Operation where
  | addSection (part title : String)
  | addRow (part row text : String) (colour : Option String)
  | removeRow (part row : String)
  | toggle (part row : String)
  | clearRows

namespace Operation

/-- The panel after an operation; one to which a row cannot be added stays as it is. -/
def apply (panel : FilterPanel) : Operation → FilterPanel
  | addSection part title => panel.addSection part title
  | addRow part row text colour =>
    match panel.addRow part row text colour with
    | .ok next => next
    | .error _ => panel
  | removeRow part row => panel.removeRow part row
  | toggle part row => (panel.toggle part row).2
  | clearRows => panel.clearRows

/-- The one section that the operation is for; clearing is for all of them. -/
def part? : Operation → Option String
  | addSection part _ | addRow part _ _ _ | removeRow part _ | toggle part _ => some part
  | clearRows => none

/-- The section that the operation adds, if it adds one. -/
def section? : Operation → Option String
  | addSection part _ => some part
  | _ => none

/-- The title that the operation gives to a section. -/
def title? (part : String) : Operation → Option String
  | addSection other title => if part = other then some title else none
  | _ => none

/-- The row that the operation adds to a section. -/
def added? (part : String) : Operation → Option FilterRow
  | addRow other row text colour => if part = other then some ⟨row, text, colour, true⟩ else none
  | _ => none

/-- Whether the operation does away with a row of a section as it was before. -/
def ends (part row : String) : Operation → Bool
  | addRow other name _ _ | removeRow other name => part == other && row == name
  | clearRows => true
  | addSection _ _ | toggle _ _ => false

/-- Whether the operation toggles a row of a section. -/
def turns (part row : String) : Operation → Bool
  | toggle other name => part == other && row == name
  | _ => false

end Operation

/-- The panel after operations on one without sections. -/
def run (operations : List Operation) : FilterPanel := operations.foldl Operation.apply {}

/-! ### Reading a history -/

/-- The sections that have been added, in the order in which they first were. -/
def sectionsAdded (operations : List Operation) : List String :=
  firstCopies id (operations.filterMap (·.section?))

/-- The title that a section got last. -/
def latestTitle (operations : List Operation) (part : String) : String :=
  (operations.reverse.findSome? (·.title? part)).getD ""

/-- The row that the first of some operations adds to a section, unless a later one does away with
it. -/
def standing? (part : String) : List Operation → Option FilterRow
  | [] => none
  | operation :: later =>
    (operation.added? part).bind fun row ↦
      if later.any (·.ends part row.id) then none
      else some { row with checked := decide (Even (later.countP (·.turns part row.id))) }

/-- The rows that have been added to a section since there is one, and that are still there, in the
order in which they were added. -/
def rowsLeft (operations : List Operation) (part : String) : List FilterRow :=
  (operations.dropWhile fun operation ↦ (operation.title? part).isNone).tails.filterMap
    (standing? part)

/-- The panel that a history tells of. -/
def recorded (operations : List Operation) : FilterPanel where
  sections := (sectionsAdded operations).map fun part ↦
    ⟨part, latestTitle operations part, rowsLeft operations part⟩

/-! ### One operation on the sections -/

namespace Operation

/-- What the operation leaves of a row in a section. -/
def left? (operation : Operation) (part : String) (row : FilterRow) : Option FilterRow :=
  if operation.ends part row.id then none
  else some (if operation.turns part row.id then row.turned else row)

/-- What the operation does to a section. -/
def change (operation : Operation) (part : FilterSection) : FilterSection where
  id := part.id
  title := (operation.title? part.id).getD part.title
  rows := part.rows.filterMap (operation.left? part.id) ++ (operation.added? part.id).toList

/-- Of the rows that are not done away with some are toggled. -/
theorem filterMap_left? (operation : Operation) (part : String) (rows : List FilterRow) :
    rows.filterMap (operation.left? part) =
      (rows.filter fun row ↦ !operation.ends part row.id).map fun row ↦
        if operation.turns part row.id then row.turned else row := by
  induction rows with
  | nil => rfl
  | cons row rows ih =>
    rw [List.filterMap_cons, List.filter_cons, left?, ih]
    cases operation.ends part row.id <;> rfl

/-- The section that the operation adds to those that are known. -/
def opened? (known : List String) : Operation → Option FilterSection
  | addSection part title => if part ∈ known then none else some { id := part, title }
  | _ => none

/-- An operation for one section leaves the others. -/
theorem change_of_ne {operation : Operation} {part : String} (hpart : operation.part? = some part)
    {other : FilterSection} (hother : other.id ≠ part) : operation.change other = other := by
  have hne : (other.id == part) = false := beq_false_of_ne hother
  unfold change
  rw [filterMap_left?]
  cases operation with
  | clearRows => cases hpart
  | addSection | addRow | removeRow | toggle =>
    obtain rfl := Option.some.inj hpart
    simp [title?, added?, ends, turns, hother, hne]

end Operation

/-- No two sections have the same name, and no two rows of a section. -/
structure Distinct (panel : FilterPanel) : Prop where
  ids : panel.ids.Nodup
  rows : ∀ part ∈ panel.sections, (part.rows.map (·.id)).Nodup

/-- Changing one section is the operation for it. Assumes: no two sections have the same name. -/
theorem sections_modify {panel : FilterPanel} (hids : panel.ids.Nodup) {operation : Operation}
    {part : String} (hpart : operation.part? = some part) {change : FilterSection → FilterSection}
    (hchange : ∀ found ∈ panel.sections, found.id = part → change found = operation.change found) :
    (panel.modify part change).sections = panel.sections.map operation.change := by
  refine (changeFirst_eq_map FilterSection.id change hids part).trans ?_
  refine List.map_congr_left fun found hfound ↦ ?_
  split_ifs with hname
  · exact hchange found hfound hname
  · exact (Operation.change_of_ne hpart hname).symm

/-- An operation for a section that does not exist leaves all that there are. -/
theorem map_change_of_not_mem (panel : FilterPanel) {operation : Operation} {part : String}
    (hpart : operation.part? = some part) (habsent : part ∉ panel.ids) :
    panel.sections.map operation.change = panel.sections := by
  refine (List.map_congr_left fun found hfound ↦ ?_).trans (List.map_id _)
  refine Operation.change_of_ne hpart fun hsame ↦ habsent ?_
  exact hsame ▸ List.mem_map_of_mem hfound

theorem isSome_section?_iff (panel : FilterPanel) (part : String) :
    (panel.section? part).isSome ↔ part ∈ panel.ids := by
  unfold section? ids
  rw [List.find?_isSome]
  simp

/-- An operation changes each section and opens at most one. -/
theorem sections_apply {panel : FilterPanel} (hpanel : panel.Distinct) (operation : Operation) :
    (operation.apply panel).sections =
      panel.sections.map operation.change ++ (operation.opened? panel.ids).toList := by
  have hknown := panel.isSome_section?_iff
  cases operation with
  | addSection part title =>
    simp only [Operation.apply, addSection, Operation.opened?, hknown]
    split_ifs with hpart
    · rw [Option.toList_none, List.append_nil]
      refine sections_modify hpanel.ids rfl fun found _ hname ↦ ?_
      simp [Operation.change, Operation.filterMap_left?, Operation.title?, Operation.added?,
        Operation.ends, Operation.turns, hname]
    · rw [panel.map_change_of_not_mem rfl hpart, Option.toList_some]
  | addRow part row text colour =>
    simp only [Operation.apply, addRow, Operation.opened?, hknown, Option.toList_none,
      List.append_nil]
    split_ifs with hpart
    · refine sections_modify hpanel.ids rfl fun found hfound hname ↦ ?_
      rw [FilterSection.add, eraseP_eq_filter FilterRow.id (hpanel.rows found hfound)]
      simp [Operation.change, Operation.filterMap_left?, Operation.title?, Operation.added?,
        Operation.ends, Operation.turns, hname, bne]
    · exact (panel.map_change_of_not_mem rfl hpart).symm
  | removeRow part row =>
    simp only [Operation.opened?, Option.toList_none, List.append_nil]
    refine sections_modify hpanel.ids rfl fun found _ hname ↦ ?_
    simp [Operation.change, Operation.filterMap_left?, Operation.title?, Operation.added?,
      Operation.ends, Operation.turns, hname, FilterSection.remove, bne]
  | toggle part row =>
    simp only [Operation.apply, toggle_snd, Operation.opened?, Option.toList_none, List.append_nil]
    refine sections_modify hpanel.ids rfl fun found hfound hname ↦ ?_
    rw [FilterSection.toggle, changeFirst_eq_map FilterRow.id _ (hpanel.rows found hfound)]
    simp [Operation.change, Operation.filterMap_left?, Operation.title?, Operation.added?,
      Operation.ends, Operation.turns, hname, FilterRow.turned]
  | clearRows =>
    simp only [Operation.opened?, Option.toList_none, List.append_nil]
    refine List.map_congr_left fun found _ ↦ ?_
    simp [Operation.change, Operation.filterMap_left?, Operation.title?, Operation.added?,
      Operation.ends]

/-! ### One operation more in a history -/

section Histories

variable (operations : List Operation) (operation : Operation) (part : String)

omit operations in
theorem isSome_title?_iff :
    (operation.title? part).isSome ↔ ∃ title, operation = .addSection part title := by
  cases operation with
  | addSection other title => simp [Operation.title?, eq_comm (a := part)]
  | addRow | removeRow | toggle | clearRows => simp [Operation.title?]

/-- The sections that have been added are those that got a title. -/
theorem mem_sectionsAdded :
    part ∈ sectionsAdded operations ↔ ∃ operation ∈ operations, (operation.title? part).isSome := by
  have hmem := mem_map_firstCopies id (operations.filterMap (·.section?)) part
  rw [List.map_id, List.map_id] at hmem
  unfold sectionsAdded
  rw [hmem, List.mem_filterMap]
  refine exists_congr fun operation ↦ and_congr_right fun _ ↦ ?_
  rw [isSome_title?_iff]
  cases operation with
  | addSection other title => simp [Operation.section?]
  | addRow | removeRow | toggle | clearRows => simp [Operation.section?]

theorem nodup_sectionsAdded : (sectionsAdded operations).Nodup := by
  have hnodup := nodup_map_firstCopies id (operations.filterMap (·.section?))
  rwa [List.map_id] at hnodup

theorem sectionsAdded_concat :
    sectionsAdded (operations ++ [operation]) = sectionsAdded operations ++
      ((operation.opened? (sectionsAdded operations)).map (·.id)).toList := by
  have hmem := mem_map_firstCopies id (operations.filterMap (·.section?))
  simp only [List.map_id] at hmem
  unfold sectionsAdded
  rw [List.filterMap_append]
  cases operation with
  | addSection part title =>
    change firstCopies id (_ ++ [part]) = _
    simp only [firstCopies_concat, List.map_id, id, Operation.opened?, hmem]
    split_ifs <;> rfl
  | addRow | removeRow | toggle | clearRows =>
    change firstCopies id (_ ++ []) = _ ++ []
    rw [List.append_nil, List.append_nil]

theorem latestTitle_concat :
    latestTitle (operations ++ [operation]) part =
      (operation.title? part).getD (latestTitle operations part) := by
  unfold latestTitle
  rw [List.reverse_concat, List.findSome?_cons]
  cases operation.title? part <;> rfl

/-- The row that stands after one operation more. -/
theorem standing?_concat (first : Operation) (later : List Operation) :
    standing? part (first :: later ++ [operation]) =
      (standing? part (first :: later)).bind (operation.left? part) := by
  unfold standing?
  simp only [List.cons_append]
  cases first.added? part with
  | none => rfl
  | some row =>
    simp only [Option.bind_some, List.any_append, List.countP_append, List.any_cons, List.any_nil,
      List.countP_singleton, Bool.or_false]
    cases later.any (·.ends part row.id) with
    | true => rfl
    | false =>
      simp only [Bool.false_or, Bool.false_eq_true, if_false, Option.bind_some, Operation.left?]
      split_ifs
      · rfl
      · simp only [Nat.even_add_one, decide_not, FilterRow.turned]
      · rw [Nat.add_zero]

omit operations in
/-- The row that an operation has just added stands. -/
theorem standing?_singleton : standing? part [operation] = operation.added? part := by
  cases operation with
  | addRow other row text colour =>
    by_cases hpart : part = other
    · simp [standing?, Operation.added?, hpart]
    · simp [standing?, Operation.added?, hpart]
  | addSection | removeRow | toggle | clearRows => rfl

/-- The rows that stand after one operation more. -/
theorem filterMap_standing?_concat :
    (operations ++ [operation]).tails.filterMap (standing? part) =
      (operations.tails.filterMap (standing? part)).filterMap (operation.left? part) ++
        (operation.added? part).toList := by
  induction operations with
  | nil =>
    rw [List.nil_append, List.tails_cons, List.filterMap_cons, standing?_singleton]
    cases operation.added? part <;> rfl
  | cons first later ih =>
    rw [List.cons_append, List.tails_cons, List.tails_cons, List.filterMap_cons,
      List.filterMap_cons, ih, ← List.cons_append, standing?_concat]
    cases standing? part (first :: later) with
    | none => rfl
    | some row =>
      rw [Option.bind_some, List.filterMap_cons]
      cases operation.left? part row <;> rfl

/-- There is a time from which on there is a section, if it has been added. -/
theorem dropWhile_title?_eq_nil_iff :
    (operations.dropWhile fun operation ↦ (operation.title? part).isNone) = [] ↔
      part ∉ sectionsAdded operations := by
  rw [List.dropWhile_eq_nil_iff, mem_sectionsAdded]
  simp

/-- What an operation does to the rows of a section is what it does to those that are left. -/
theorem rowsLeft_concat (hpart : part ∈ sectionsAdded operations) :
    rowsLeft (operations ++ [operation]) part =
      (rowsLeft operations part).filterMap (operation.left? part) ++
        (operation.added? part).toList := by
  have hbegun := (dropWhile_title?_eq_nil_iff operations part).not.mpr (not_not.mpr hpart)
  unfold rowsLeft
  rw [List.dropWhile_append, if_neg (by simpa using hbegun), filterMap_standing?_concat]

/-- A section that did not exist before an operation has no rows after it. -/
theorem rowsLeft_concat_of_not_mem (hpart : part ∉ sectionsAdded operations) :
    rowsLeft (operations ++ [operation]) part = [] := by
  have hbegun := (dropWhile_title?_eq_nil_iff operations part).mpr hpart
  unfold rowsLeft
  rw [List.dropWhile_append, hbegun, if_pos List.isEmpty_nil, List.dropWhile_cons]
  split_ifs with htitle
  · rfl
  · rw [List.tails_cons, List.filterMap_cons, standing?_singleton]
    obtain ⟨title, rfl⟩ := (isSome_title?_iff operation part).mp
      (Option.isSome_iff_ne_none.mpr fun hnone ↦ htitle (hnone ▸ rfl))
    rfl

end Histories

theorem Operation.added?_eq_some_iff {operation : Operation} {part : String} {row : FilterRow} :
    operation.added? part = some row ↔
      operation = .addRow part row.id row.text row.colour ∧ row.checked = true := by
  obtain ⟨id, text, colour, checked⟩ := row
  cases operation with
  | addRow other name shown swatch =>
    simp only [added?, Option.ite_none_right_eq_some, Option.some.injEq, FilterRow.mk.injEq,
      addRow.injEq]
    tauto
  | addSection | removeRow | toggle | clearRows => simp [added?]

/-- No two rows of a section have the same name. -/
theorem nodup_rowsLeft (operations : List Operation) (part : String) :
    ((rowsLeft operations part).map (·.id)).Nodup := by
  induction operations using List.reverseRecOn with
  | nil => exact List.nodup_nil
  | append_singleton operations operation ih =>
    by_cases hpart : part ∈ sectionsAdded operations
    · have hkept : ((rowsLeft operations part).filterMap (operation.left? part)).map (·.id) =
          ((rowsLeft operations part).filter fun row ↦ !operation.ends part row.id).map (·.id) := by
        rw [Operation.filterMap_left?, List.map_map]
        refine List.map_congr_left fun row _ ↦ ?_
        simp only [Function.comp_apply]
        split_ifs <;> rfl
      rw [rowsLeft_concat operations operation part hpart, List.map_append, hkept]
      refine List.nodup_append.mpr ⟨ih.sublist (List.filter_sublist.map _), ?_, ?_⟩
      · cases operation.added? part <;> simp
      · intro name hname other hother hsame
        obtain ⟨row, hrow, rfl⟩ := List.mem_map.mp hname
        obtain ⟨added, hadded, rfl⟩ := List.mem_map.mp hother
        obtain ⟨rfl, -⟩ := Operation.added?_eq_some_iff.mp (Option.mem_toList.mp hadded)
        have hleft := (List.mem_filter.mp hrow).2
        rw [hsame] at hleft
        simp [Operation.ends] at hleft
    · rw [rowsLeft_concat_of_not_mem operations operation part hpart]
      exact List.nodup_nil

theorem ids_recorded (operations : List Operation) :
    (recorded operations).ids = sectionsAdded operations := by
  unfold ids recorded
  rw [List.map_map]
  exact List.map_id _

theorem distinct_recorded (operations : List Operation) : (recorded operations).Distinct where
  ids := ids_recorded operations ▸ nodup_sectionsAdded operations
  rows part hpart := by
    obtain ⟨name, -, rfl⟩ := List.mem_map.mp hpart
    exact nodup_rowsLeft operations name

/-- An operation on the recorded panel makes it the one recorded after the operation. -/
theorem apply_recorded (operations : List Operation) (operation : Operation) :
    operation.apply (recorded operations) = recorded (operations ++ [operation]) := by
  have hsections : (operation.apply (recorded operations)).sections =
      (recorded (operations ++ [operation])).sections := by
    rw [sections_apply (distinct_recorded operations), ids_recorded]
    unfold recorded
    rw [sectionsAdded_concat, List.map_append, List.map_map]
    congr 1
    · refine List.map_congr_left fun part hpart ↦ ?_
      rw [latestTitle_concat, rowsLeft_concat operations operation part hpart]
      rfl
    · cases operation with
      | addSection part title =>
        rw [Operation.opened?]
        split_ifs with hpart
        · rfl
        · simp [latestTitle_concat, rowsLeft_concat_of_not_mem _ _ _ hpart, Operation.title?]
      | addRow | removeRow | toggle | clearRows => rfl
  exact congrArg FilterPanel.mk hsections

/-- What a panel has gone through determines it. -/
theorem run_eq_recorded (operations : List Operation) : run operations = recorded operations := by
  induction operations using List.reverseRecOn with
  | nil => rfl
  | append_singleton operations operation ih =>
    unfold run at ih ⊢
    rw [List.foldl_append, ih]
    exact apply_recorded operations operation

/-! ### What the panel shows -/

theorem ids_run (operations : List Operation) :
    (run operations).ids = sectionsAdded operations := by
  rw [run_eq_recorded, ids_recorded]

theorem distinct_run (operations : List Operation) : (run operations).Distinct := by
  rw [run_eq_recorded]
  exact distinct_recorded operations

/-- A section that has been added has its latest title and the rows that are left. -/
theorem section?_run (operations : List Operation) {part : String}
    (hpart : part ∈ sectionsAdded operations) :
    (run operations).section? part =
      some ⟨part, latestTitle operations part, rowsLeft operations part⟩ := by
  have hmem : ⟨part, latestTitle operations part, rowsLeft operations part⟩ ∈
      (run operations).sections := by
    rw [run_eq_recorded]
    exact List.mem_map_of_mem hpart
  exact section?_eq_some_of_mem (distinct_run operations).ids hmem

theorem rows_run (operations : List Operation) (part : String) :
    (run operations).rows part = rowsLeft operations part := by
  by_cases hpart : part ∈ sectionsAdded operations
  · rw [rows, section?_run operations hpart]
    rfl
  · have hnone : (run operations).section? part = none := by
      rw [← Option.not_isSome_iff_eq_none, isSome_section?_iff, ids_run]
      exact hpart
    rw [rows, hnone, rowsLeft, (dropWhile_title?_eq_nil_iff operations part).mpr hpart]
    rfl

/-- A row stands if it is added first and not done away with later. -/
theorem standing?_eq_some_iff {operations : List Operation} {part : String} {row : FilterRow} :
    standing? part operations = some row ↔ ∃ later,
      operations = .addRow part row.id row.text row.colour :: later ∧
        (∀ operation ∈ later, operation.ends part row.id = false) ∧
        (row.checked = true ↔ Even (later.countP (·.turns part row.id))) := by
  constructor
  · intro hrow
    cases operations with
    | nil => cases hrow
    | cons first later =>
      obtain ⟨added, hadded, hleft⟩ := Option.bind_eq_some_iff.mp hrow
      obtain ⟨rfl, -⟩ := Operation.added?_eq_some_iff.mp hadded
      split_ifs at hleft with hends
      obtain rfl := Option.some.inj hleft
      exact ⟨later, rfl, by simpa using hends, decide_eq_true_iff⟩
  · rintro ⟨later, rfl, hkept, hchecked⟩
    have hends : ¬later.any (·.ends part row.id) = true := by simpa using hkept
    have heven : decide (Even (later.countP (·.turns part row.id))) = row.checked := by
      rw [Bool.eq_iff_iff, decide_eq_true_iff, hchecked]
    simp only [standing?, Operation.added?, if_true, Option.bind_some, if_neg hends, heven]

/-- A row is left if it has been added to a section that there was, and no later operation has done
away with it; how often it has been toggled since tells whether it is checked. -/
theorem mem_rowsLeft_iff (operations : List Operation) (part : String) (row : FilterRow) :
    row ∈ rowsLeft operations part ↔ ∃ before later,
      operations = before ++ .addRow part row.id row.text row.colour :: later ∧
        part ∈ sectionsAdded before ∧
        (∀ operation ∈ later, operation.ends part row.id = false) ∧
        (row.checked = true ↔ Even (later.countP (·.turns part row.id))) := by
  unfold rowsLeft
  simp only [List.mem_filterMap, List.mem_tails, standing?_eq_some_iff]
  constructor
  · rintro ⟨_, ⟨earlier, hearlier⟩, later, rfl, hleft⟩
    have hsplit := List.takeWhile_append_dropWhile
      (p := fun operation : Operation ↦ (operation.title? part).isNone) (l := operations)
    refine ⟨operations.takeWhile (fun operation ↦ (operation.title? part).isNone) ++ earlier, later,
      ?_, ?_, hleft⟩
    · rw [List.append_assoc, hearlier, hsplit]
    · -- What is left of the history begins with the section, so that is not where the row is added.
      have hfirst := List.head?_dropWhile_not
        (fun operation : Operation ↦ (operation.title? part).isNone) operations
      rw [← hearlier] at hfirst
      cases earlier with
      | nil => cases hfirst
      | cons first earlier =>
        refine (mem_sectionsAdded _ part).mpr ⟨first, by simp, ?_⟩
        simpa [← Option.not_isSome] using hfirst
  · rintro ⟨before, later, rfl, hpart, hleft⟩
    have hbegun := (dropWhile_title?_eq_nil_iff before part).not.mpr (not_not.mpr hpart)
    rw [List.dropWhile_append, if_neg (by simpa using hbegun)]
    exact ⟨_, List.suffix_append _ _, later, rfl, hleft⟩

/-- The rows that are left are in the order in which they were last added. -/
theorem pairwise_rowsLeft (operations : List Operation) (part : String) :
    (rowsLeft operations part).Pairwise fun row next ↦ ∃ before between later,
      operations = before ++ .addRow part row.id row.text row.colour ::
          (between ++ .addRow part next.id next.text next.colour :: later) ∧
        (∀ operation ∈ between ++ .addRow part next.id next.text next.colour :: later,
          operation.ends part row.id = false) ∧
        ∀ operation ∈ later, operation.ends part next.id = false := by
  have htails (history : List Operation) :
      history.tails.Pairwise fun longer shorter ↦ shorter <:+ longer.tail := by
    induction history with
    | nil => simp
    | cons first later ih =>
      rw [List.tails_cons, List.pairwise_cons]
      exact ⟨fun shorter hshorter ↦ (List.mem_tails shorter later).mp hshorter, ih⟩
  refine List.pairwise_filterMap.mpr ((List.Pairwise.and_mem.mp (htails _)).imp ?_)
  rintro longer shorter ⟨hlonger, -, between, hbetween⟩ row hrow next hnext
  obtain ⟨later, rfl, hrowKept, -⟩ := standing?_eq_some_iff.mp hrow
  obtain ⟨last, rfl, hnextKept, -⟩ := standing?_eq_some_iff.mp hnext
  obtain ⟨before, hbefore⟩ := ((List.mem_tails _ _).mp hlonger).trans (List.dropWhile_suffix _)
  rw [List.tail_cons] at hbetween
  subst hbetween
  exact ⟨before, between, last, hbefore.symm, hrowKept, hnextKept⟩

/-- The title of a section is the one it got last. -/
theorem exists_latestTitle (operations : List Operation) {part : String}
    (hpart : part ∈ sectionsAdded operations) : ∃ before later,
      operations = before ++ .addSection part (latestTitle operations part) :: later ∧
        ∀ operation ∈ later, operation.title? part = none := by
  induction operations using List.reverseRecOn with
  | nil => cases hpart
  | append_singleton operations operation ih =>
    rw [latestTitle_concat]
    cases htitle : operation.title? part with
    | some title =>
      obtain ⟨given, rfl⟩ :=
        (isSome_title?_iff operation part).mp (Option.isSome_iff_exists.mpr ⟨title, htitle⟩)
      rw [Operation.title?, if_pos rfl] at htitle
      obtain rfl := Option.some.inj htitle
      exact ⟨operations, [], rfl, by simp⟩
    | none =>
      have hearlier : part ∈ sectionsAdded operations := by
        rw [mem_sectionsAdded] at hpart ⊢
        obtain ⟨adding, hadding, hsome⟩ := hpart
        rcases List.mem_append.mp hadding with hadding | hadding
        · exact ⟨adding, hadding, hsome⟩
        · rw [List.mem_singleton.mp hadding, htitle] at hsome
          cases hsome
      obtain ⟨before, later, hsplit, hlater⟩ := ih hearlier
      refine ⟨before, later ++ [operation], ?_, ?_⟩
      · rw [Option.getD_none]
        nth_rewrite 1 [hsplit]
        rw [List.append_assoc, List.cons_append]
      · simpa [or_imp, forall_and, htitle] using hlater

/-! ### What the panel answers -/

theorem checked?_eq_none_iff (panel : FilterPanel) (part row : String) :
    panel.checked? part row = none ↔ row ∉ (panel.rows part).map (·.id) := by
  rw [← isSome_row?_iff, checked?, Option.map_eq_none_iff, Option.not_isSome_iff_eq_none]

/-- A row is found by its name if no two of its section have the same. -/
theorem checked?_of_mem {panel : FilterPanel} {part : String}
    (hnodup : ((panel.rows part).map (·.id)).Nodup) {row : FilterRow}
    (hrow : row ∈ panel.rows part) : panel.checked? part row.id = some row.checked := by
  rw [checked?, row?_eq_find?]
  cases hfound : (panel.rows part).find? (·.id == row.id) with
  | none => exact absurd (beq_self_eq_true row.id) (List.find?_eq_none.mp hfound row hrow)
  | some found =>
    have hname := List.find?_some hfound
    have hsame : found = row := List.inj_on_of_nodup_map hnodup
      (List.mem_of_find?_eq_some hfound) hrow (beq_iff_eq.mp hname)
    rw [hsame, Option.map_some]

/-- The status of a section has an entry for each of its rows. -/
theorem mem_status_iff {panel : FilterPanel} {part : String}
    (hnodup : ((panel.rows part).map (·.id)).Nodup) (entry : String × Bool) :
    entry ∈ (panel.status part).entries ↔
      ∃ row ∈ panel.rows part, entry = (row.id, row.checked) := by
  unfold status
  unfold rows at hnodup ⊢
  cases hfound : panel.section? part with
  | none => simp [EmptyCollection.emptyCollection]
  | some found =>
    rw [hfound] at hnodup
    have hkeys : ((found.rows.map fun row ↦ (row.id, row.checked)).map Prod.fst).Nodup := by
      rw [List.map_map]
      exact hnodup
    rw [Dictionary.mem_ofList_iff hkeys, List.mem_map]
    exact exists_congr fun row ↦ and_congr_right fun _ ↦ eq_comm

/-- An operation for one section leaves the others as they are. -/
theorem section?_apply_of_ne {panel : FilterPanel} (hpanel : panel.Distinct)
    {operation : Operation} {part other : String} (hpart : operation.part? = some part)
    (hother : other ≠ part) :
    (operation.apply panel).section? other = panel.section? other := by
  have hopened : (operation.opened? panel.ids).toList.find? (·.id == other) = none := by
    cases operation with
    | addSection known title =>
      obtain rfl := Option.some.inj hpart
      rw [Operation.opened?]
      split_ifs
      · rfl
      · simp [Ne.symm hother]
    | addRow | removeRow | toggle | clearRows => rfl
  unfold section?
  rw [sections_apply hpanel, List.find?_append, hopened, Option.or_none, List.find?_map]
  change (panel.sections.find? (·.id == other)).map operation.change = _
  refine (Option.map_congr fun found hfound ↦ ?_).trans Option.map_id'
  have hsame := List.find?_some hfound
  have hname : found.id = other := beq_iff_eq.mp hsame
  exact Operation.change_of_ne hpart (hname ▸ hother)

/-- Adding a row to a panel that has gone through some operations is one operation more; it fails if
the section has not been added, and nothing has happened then. -/
theorem addRow_run (operations : List Operation) (part row text : String)
    (colour : Option String) :
    let after := run (operations ++ [.addRow part row text colour])
    (part ∈ sectionsAdded operations → (run operations).addRow part row text colour = .ok after) ∧
      (part ∉ sectionsAdded operations →
        (run operations).addRow part row text colour = .error ⟨part⟩ ∧ after = run operations) := by
  intro after
  have hafter : after = (Operation.addRow part row text colour).apply (run operations) := by
    unfold after run
    rw [List.foldl_append]
    rfl
  rw [hafter, Operation.apply, ← ids_run, ← isSome_section?_iff]
  unfold addRow
  refine ⟨fun hpart ↦ ?_, fun hpart ↦ ?_⟩
  · rw [if_pos hpart]
  · rw [if_neg hpart]
    exact ⟨rfl, rfl⟩

/-- A panel without sections at first is what it has gone through. It has the sections that were
added, each once, in the order in which they first were and with the title they got last. Each has
the rows left of it, each once, in the order in which they were added, and what is said of a row is
whether it has been toggled an even number of times since. Toggling a row answers whether it is
checked then; where there is no such row, and only there, it answers nothing, and the panel stays. A
row is only added to a section that has been, and an operation for one section leaves the others. -/
theorem panel_of_history (operations : List Operation) :
    let panel := run operations
    (panel.ids = sectionsAdded operations ∧ panel.ids.Nodup) ∧
      (∀ part ∈ panel.ids, ∃ before title later,
        operations = before ++ .addSection part title :: later ∧
          (∀ operation ∈ later, operation.title? part = none) ∧
          panel.section? part = some ⟨part, title, rowsLeft operations part⟩) ∧
      (∀ part,
        (∀ row, row ∈ panel.rows part ↔ ∃ before later,
          operations = before ++ .addRow part row.id row.text row.colour :: later ∧
            part ∈ sectionsAdded before ∧
            (∀ operation ∈ later, operation.ends part row.id = false) ∧
            (row.checked = true ↔ Even (later.countP (·.turns part row.id)))) ∧
        ((panel.rows part).map (·.id)).Nodup ∧
        (panel.rows part).Pairwise fun row next ↦ ∃ before between later,
          operations = before ++ .addRow part row.id row.text row.colour ::
              (between ++ .addRow part next.id next.text next.colour :: later) ∧
            (∀ operation ∈ between ++ .addRow part next.id next.text next.colour :: later,
              operation.ends part row.id = false) ∧
            ∀ operation ∈ later, operation.ends part next.id = false) ∧
      (∀ part,
        (∀ row ∈ panel.rows part,
          (panel.toggle part row.id).1 = some (!row.checked) ∧
            (panel.toggle part row.id).2.checked? part row.id = some (!row.checked) ∧
            panel.isEnabled part row.id = row.checked) ∧
        (∀ name ∉ (panel.rows part).map (·.id),
          panel.toggle part name = (none, panel) ∧ panel.isEnabled part name = true) ∧
        (∀ name, (panel.toggle part name).1 = none ↔ name ∉ (panel.rows part).map (·.id)) ∧
        ∀ entry, entry ∈ (panel.status part).entries ↔
          ∃ row ∈ panel.rows part, entry = (row.id, row.checked)) ∧
      (∀ part row text colour,
        let after := run (operations ++ [.addRow part row text colour])
        (part ∈ sectionsAdded operations → panel.addRow part row text colour = .ok after) ∧
          (part ∉ sectionsAdded operations →
            panel.addRow part row text colour = .error ⟨part⟩ ∧ after = panel)) ∧
      ∀ (operation : Operation) (part other : String), operation.part? = some part → other ≠ part →
        (operation.apply panel).section? other = panel.section? other := by
  intro panel
  have hids : panel.ids = sectionsAdded operations := ids_run operations
  have hrows := rows_run operations
  have hnodup (part : String) : ((panel.rows part).map (·.id)).Nodup :=
    hrows part ▸ nodup_rowsLeft operations part
  refine ⟨⟨hids, hids ▸ nodup_sectionsAdded operations⟩, ?sections, ?rows, ?answers,
    addRow_run operations,
    fun operation part other ↦ section?_apply_of_ne (distinct_run operations)⟩
  case sections =>
    intro part hpart
    rw [hids] at hpart
    obtain ⟨before, later, hsplit, hlater⟩ := exists_latestTitle operations hpart
    exact ⟨before, _, later, hsplit, hlater, section?_run operations hpart⟩
  case rows =>
    intro part
    refine ⟨fun row ↦ ?_, hnodup part, ?_⟩
    · rw [hrows part, mem_rowsLeft_iff]
    · rw [hrows part]
      exact pairwise_rowsLeft operations part
  case answers =>
    intro part
    have habsent := checked?_eq_none_iff panel part
    refine ⟨fun row hrow ↦ ?_, fun name hname ↦ ?_, fun name ↦ ?_, mem_status_iff (hnodup part)⟩
    · have hchecked := checked?_of_mem (hnodup part) hrow
      rw [toggle_fst, checked?_toggle, if_pos ⟨rfl, rfl⟩, isEnabled, hchecked]
      exact ⟨rfl, rfl, rfl⟩
    · have hnone : panel.checked? part name = none := (habsent name).mpr hname
      rw [isEnabled, hnone]
      exact ⟨toggle_of_row?_eq_none (Option.map_eq_none_iff.mp hnone), rfl⟩
    · rw [toggle_fst, Option.map_eq_none_iff, habsent]

/-- A row that is added again is the last one and checked; one added too early is not there. -/
example :
    (run [.addRow "lang" "la" "Latin" none, .addSection "lang" "Languages",
      .addRow "lang" "el" "Greek" none, .addRow "lang" "grc" "Ancient Greek" none,
      .toggle "lang" "el", .toggle "lang" "grc", .addRow "lang" "el" "Greek" none]).sections =
      [⟨"lang", "Languages",
        [⟨"grc", "Ancient Greek", none, false⟩, ⟨"el", "Greek", none, true⟩]⟩] := by
  decide

end FilterPanel

end LabelledMap
