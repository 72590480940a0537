import LabelledMap.Text.Dictionary

/-!
# Filters

The panel with which places are filtered: sections with a title, and in each section rows that are
checked or not. Sections keep the order in which they were first added and rows the order in which
they were last added. A row that does not exist filters nothing. Sections and rows are looked up by
their identifiers, and the first one found is the one that is changed.
-/

set_option autoImplicit false

namespace LabelledMap

/-- The list with the first item that satisfies a condition changed. -/
def changeFirst {ι : Type} (condition : ι → Bool) (change : ι → ι) (items : List ι) : List ι :=
  items.modify (items.findIdx condition) change

/-- A row that can be checked. -/
structure FilterRow where
  id : String
  text : String
  /-- The colour shown beside the text. -/
  colour : Option String
  checked : Bool
deriving DecidableEq

/-- The row checked if it was not, and not checked if it was. -/
def FilterRow.turned (row : FilterRow) : FilterRow := { row with checked := !row.checked }

/-- Rows under a title. -/
structure FilterSection where
  id : String
  title : String
  rows : List FilterRow := []
deriving DecidableEq

namespace FilterSection

/-- The row with an identifier. -/
def row? (part : FilterSection) (row : String) : Option FilterRow :=
  part.rows.find? (·.id == row)

/-- The section without a row. -/
def remove (part : FilterSection) (row : String) : FilterSection :=
  { part with rows := part.rows.filter (·.id != row) }

/-- The section with a checked row at its end; a row with the same identifier is replaced. -/
def add (part : FilterSection) (row text : String) (colour : Option String) : FilterSection :=
  { part with rows := part.rows.eraseP (·.id == row) ++ [⟨row, text, colour, true⟩] }

/-- The section with a row turned over. -/
def toggle (part : FilterSection) (row : String) : FilterSection :=
  { part with rows := changeFirst (·.id == row) FilterRow.turned part.rows }

end FilterSection

/-- The sections of the panel. -/
structure FilterPanel where
  sections : List FilterSection := []
deriving DecidableEq

/-- A row was added to a section that does not exist. -/
structure UnknownSection where
  id : String
deriving DecidableEq

def UnknownSection.message (fault : UnknownSection) : String :=
  "unknown filter section: " ++ fault.id

/-- What sections without rows show. -/
def emptySectionText : String := "Loading..."

namespace FilterPanel

/-- The section with an identifier. -/
def section? (panel : FilterPanel) (part : String) : Option FilterSection :=
  panel.sections.find? (·.id == part)

/-- A row of a section. -/
def row? (panel : FilterPanel) (part row : String) : Option FilterRow :=
  (panel.section? part).bind (·.row? row)

/-- The panel with the section of an identifier changed. -/
def modify (panel : FilterPanel) (part : String) (change : FilterSection → FilterSection) :
    FilterPanel where
  sections := changeFirst (·.id == part) change panel.sections

/-- The panel with a section; one that exists already gets the title and keeps its rows. -/
def addSection (panel : FilterPanel) (part title : String) : FilterPanel :=
  if (panel.section? part).isSome then panel.modify part ({ · with title })
  else ⟨panel.sections ++ [{ id := part, title }]⟩

/-- The panel with a checked row at the end of a section that exists. -/
def addRow (panel : FilterPanel) (part row text : String) (colour : Option String) :
    Except UnknownSection FilterPanel :=
  if (panel.section? part).isSome then .ok (panel.modify part (·.add row text colour))
  else .error ⟨part⟩

/-- The panel without a row. -/
def removeRow (panel : FilterPanel) (part row : String) : FilterPanel :=
  panel.modify part (·.remove row)

/-- Whether a row is checked once it is turned over, and the panel after it. Nothing is answered and
nothing changes if there is no such row. -/
def toggle (panel : FilterPanel) (part row : String) : Option Bool × FilterPanel :=
  match panel.row? part row with
  | some found => (some found.turned.checked, panel.modify part (·.toggle row))
  | none => (none, panel)

/-- Whether a row is checked, if it exists. -/
def checked? (panel : FilterPanel) (part row : String) : Option Bool :=
  (panel.row? part row).map (·.checked)

/-- The panel without rows. -/
def clearRows (panel : FilterPanel) : FilterPanel where
  sections := panel.sections.map ({ · with rows := [] })

/-- Which rows of a section are checked, in the order of their identifiers. -/
def status (panel : FilterPanel) (part : String) : Dictionary Bool :=
  match panel.section? part with
  | some part => .ofList (part.rows.map fun row ↦ (row.id, row.checked))
  | none => ∅

/-- Whether a row lets its places through. -/
def isEnabled (panel : FilterPanel) (part row : String) : Bool :=
  (panel.checked? part row).getD true

end FilterPanel

end LabelledMap
