import LabelledMap.Decimal.Double
import LabelledMap.Proofs.View.Runs
import LabelledMap.Scalar.Double

/-!
# The panel shows what is known

The filter panel is never asked for more than it has: in every view that can be reached it has a row
for each language that is known and for each category of a place, and one for places without a name
if there are any. Taking in a response adds rows behind the old ones and leaves these as the user
has set them (`MapView.panel_mirrors`).
-/

set_option autoImplicit false

namespace LabelledMap.MapView

variable {α : Type}

/-- A response is taken in, and each section has its old rows followed by new ones. -/
theorem ingest_rows {view : MapView α} (hview : view.Sound) (response : Response α) :
    ∃ summary next, view.ingest response = .ok (summary, next) ∧ ∀ part, ∃ added,
      next.filters.rows part = view.filters.rows part ++ added ∧
        ∀ row ∈ added, row.checked = true ∧ row.id ∉ (view.filters.rows part).map (·.id) := by
  obtain ⟨next, hnext, hgrows⟩ := ingest_spec hview response
  exact ⟨_, next, hnext, hgrows.filters.rows_eq⟩

variable [Legible α]

/-- Languages and icons that are known stay as they are in every further run. -/
theorem run_keeps {view : MapView α} (hview : view.Sound) (operations : List (Operation α)) :
    ∃ later, view.run operations = .ok later ∧
      (∀ id language, view.language? id = some language → later.language? id = some language) ∧
      ∀ name icon, view.icon? name = some icon → later.icon? name = some icon := by
  obtain ⟨later, hlater, hadvances⟩ := run_advances hview operations
  refine ⟨later, hlater, fun id language hlanguage ↦ ?_, hadvances.icons⟩
  rw [hadvances.languages, hlanguage, Option.some_or]

/-- What the filter panel shows after any run, none of which is ended. It has the sections of
languages and of categories. The rows of languages have different names: the numbers of the
languages that are known, and the name for unnamed places if there is a place without names; the row
of a language has its name and its colour, as the definition says that was met first. The rows of
categories have different names, which are the categories of the places. Every response is taken in;
the rows of each section then are the old ones as they were and after them rows with new names, all
checked. A language or an icon that is known stays as it is, whatever is done further. -/
theorem panel_mirrors (options : MapOptions α) (operations : List (Operation α)) :
    ∃ view, (new options).run operations = .ok view ∧
      view.filters.ids = [languageSection, categorySection] ∧
      LanguageRows (view.filters.rows languageSection) view.language?
        (∃ place ∈ view.places, place.names = []) ∧
      (∀ id, view.language? id = (definitions [] operations).find? (·.id == id)) ∧
      CategoryRows (view.filters.rows categorySection) (view.places.map (·.category)) ∧
      (∀ response, ∃ summary next, view.ingest response = .ok (summary, next) ∧
        ∀ part, ∃ added, next.filters.rows part = view.filters.rows part ++ added ∧
          ∀ row ∈ added, row.checked = true ∧ row.id ∉ (view.filters.rows part).map (·.id)) ∧
      ∀ further, ∃ later, view.run further = .ok later ∧
        (∀ id language, view.language? id = some language → later.language? id = some language) ∧
        ∀ name icon, view.icon? name = some icon → later.icon? name = some icon := by
  obtain ⟨view, hrun, hadvances⟩ := run_advances (sound_new options) operations
  have hview := hadvances.sound
  exact ⟨view, hrun, hview.sections, hview.languageRows, hadvances.languages, hview.categoryRows,
    ingest_rows hview, run_keeps hview⟩

/-- A row that was switched off stays off when its language is listed anew with another colour. -/
theorem panel_mirrors_redefined :
    let start : MapView Float := .new .standard
    let english : Language := ⟨1, "English", "red"⟩
    let unnamed : Place Float := ⟨1, ⟨-21, 119⟩, [], none, "range"⟩
    let karijini : Place Float :=
      ⟨2, ⟨-22.67, 118.29⟩, [⟨"Karijini", ⟨3, "Banyjima", "blue"⟩⟩], none, "range"⟩
    let operations :=
      [.ingest { places := [unnamed], languages := [english] }, .toggle languageSection "1"]
    let response : Response Float :=
      { places := [karijini], languages := [{ english with colour := "green" }] }
    ∃ view summary next added later, start.run operations = .ok view ∧
      view.filters.rows languageSection =
        [⟨"1", "English", some "red", false⟩, ⟨"unknown", "Unknown", none, true⟩] ∧
      view.ingest response = .ok (summary, next) ∧
      next.filters.rows languageSection = view.filters.rows languageSection ++ added ∧
      (∀ row ∈ added, row.checked = true) ∧
      view.run [.ingest response] = .ok later ∧ later.language? 1 = some english := by
  intro start english unnamed karijini operations response
  obtain ⟨view, hrun, -, -, -, -, hingest, hfurther⟩ := panel_mirrors .standard operations
  obtain ⟨summary, next, hnext, hrows⟩ := hingest response
  obtain ⟨added, hadded, hnew⟩ := hrows languageSection
  obtain ⟨later, hlater, hlanguages, -⟩ := hfurther [.ingest response]
  have hview : (start.run operations).toOption.map (fun view ↦
      (view.filters.rows languageSection, view.language? 1)) =
        some ([⟨"1", "English", some "red", false⟩, ⟨"unknown", "Unknown", none, true⟩],
          some english) := by
    decide +kernel
  have hstart : start.run operations = .ok view := hrun
  rw [hstart] at hview
  obtain ⟨hold, henglish⟩ := Prod.mk.inj (Option.some.inj hview)
  exact ⟨view, summary, next, added, later, hrun, hold, hnext, hadded,
    fun row hrow ↦ (hnew row hrow).1, hlater, hlanguages 1 english henglish⟩

end LabelledMap.MapView
