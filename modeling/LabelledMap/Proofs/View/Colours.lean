import LabelledMap.Decimal.Double
import LabelledMap.Proofs.View.Runs
import LabelledMap.Scalar.Double

/-!
# The colours of languages

A language has a colour, and it reaches the map in two ways. Its filter row is made from the
definition that was met first, and stays so. The dot of a place is filled in the colour that the
place itself gives to the language of its name, as the first copy of the place says it. Nothing
compares the two.

So a row always has the colour of the first definition (`MapView.exists_row?_of_language?`), and the
dots agree with it (`MapView.AlikeInColour`) exactly when each place that is shown gives its
language that colour (`MapView.alikeInColour_iff`). A response that lists a language in one colour
and has a place in it in another is enough for a dot that does not match its row
(`MapView.dot_unlike_row`).
-/

set_option autoImplicit false

namespace LabelledMap.MapView

variable {α : Type}

/-- The dots of places with a name have the colour of the filter row of their language, which is
that of its first definition. -/
def AlikeInColour [Scalar α] (view : MapView α) (definitions : List Language) : Prop :=
  ∀ place ∈ view.places, ∀ language, place.language? = some language →
    ∃ row first, view.filters.row? languageSection (languageRow language.id) = some row ∧
      view.language? language.id = some first ∧
      definitions.find? (·.id == language.id) = some first ∧ row.colour = some first.colour ∧
      ∀ project, ∀ feature ∈ view.features project, feature.id = place.id →
        feature.fillColor = row.colour

/-- A language that is known has a row, in the colour of its definition. -/
theorem exists_row?_of_language? {view : MapView α} (hview : view.Sound) {id : LanguageId}
    {first : Language} (hknown : view.language? id = some first) :
    ∃ row, view.filters.row? languageSection (languageRow id) = some row ∧
      row.colour = some first.colour := by
  have hmem : languageRow id ∈ (view.filters.rows languageSection).map (·.id) := by
    rw [hview.languageRows.mem_languageRow_iff, hknown]
    rfl
  obtain ⟨row, hrow⟩ := Option.isSome_iff_exists.mp ((FilterPanel.isSome_row?_iff ..).mpr hmem)
  have hfound := hrow
  rw [FilterPanel.row?_eq_find?] at hfound
  have hname := List.find?_some hfound
  obtain ⟨language, hlanguage, -, hcolour⟩ := hview.languageRows.shown row
    (List.mem_of_find?_eq_some hfound) id (beq_iff_eq.mp hname)
  obtain rfl : first = language := Option.some.inj (hknown.symm.trans hlanguage)
  exact ⟨row, hrow, hcolour⟩

/-- The features with the identifier of a place are its dot, if it is shown. -/
theorem mem_features_iff [Scalar α] {view : MapView α} (hview : view.Sound) {place : Place α}
    (hplace : place ∈ view.places) (project : LatLng α → Point α) (feature : Feature α) :
    feature ∈ view.features project ∧ feature.id = place.id ↔
      view.shows place = true ∧ feature = dot project place := by
  have hids : (view.places.map (·.id)).Nodup := hview.order ▸ hview.nodup
  unfold features
  rw [List.mem_map]
  constructor
  · rintro ⟨⟨other, hother, rfl⟩, hid⟩
    rw [List.mem_filter] at hother
    obtain rfl : other = place := List.inj_on_of_nodup_map hids hother.1 hplace hid
    exact ⟨hother.2, rfl⟩
  · rintro ⟨hshown, rfl⟩
    exact ⟨⟨place, List.mem_filter.mpr ⟨hplace, hshown⟩, rfl⟩, rfl⟩

theorem fillColor_dot [Scalar α] (project : LatLng α → Point α) {place : Place α}
    {language : Language} (hlanguage : place.language? = some language) :
    (dot project place).fillColor = some language.colour := by
  rw [dot, Place.colour, hlanguage]
  rfl

variable [Legible α]

/-- The language of a place's name has a row, in the colour of the definition that was met first. -/
theorem exists_row?_of_place {options : MapOptions α} {operations : List (Operation α)}
    {view : MapView α}
    (hview : (new options).Advances (received operations) ((new options).taken operations)
      (definitions [] operations) view) {place : Place α} (hplace : place ∈ view.places)
    {language : Language} (hlanguage : place.language? = some language) :
    ∃ row first, view.filters.row? languageSection (languageRow language.id) = some row ∧
      view.language? language.id = some first ∧
      (definitions [] operations).find? (·.id == language.id) = some first ∧
      row.colour = some first.colour := by
  obtain ⟨first, hfirst⟩ :=
    Option.isSome_iff_exists.mp (isSome_language?_of_mem hview hplace hlanguage)
  obtain ⟨row, hrow, hcolour⟩ := exists_row?_of_language? hview.sound hfirst
  exact ⟨row, first, hrow, hfirst, (hview.languages _).symm.trans hfirst, hcolour⟩

variable [Scalar α]

/-- Which colours a view has after any run, none of which is ended. The language of a place's name
has a filter row in the colour of the definition that was met first, and the dot of the place, if it
is shown, is in the colour that the place gives to the language. So all dots have the colour of
their rows if and only if no place that is shown gives its language another colour than the first
definition. -/
theorem alikeInColour_iff (options : MapOptions α) (operations : List (Operation α)) :
    ∃ view, (new options).run operations = .ok view ∧
      (∀ place ∈ view.places, ∀ language, place.language? = some language →
        (∃ row first, view.filters.row? languageSection (languageRow language.id) = some row ∧
          view.language? language.id = some first ∧
          (definitions [] operations).find? (·.id == language.id) = some first ∧
          row.colour = some first.colour) ∧
        ∀ project, ∀ feature ∈ view.features project, feature.id = place.id →
          feature.fillColor = some language.colour) ∧
      (view.AlikeInColour (definitions [] operations) ↔
        ∀ place ∈ view.places, view.shows place = true → ∀ language first,
          place.language? = some language →
          (definitions [] operations).find? (·.id == language.id) = some first →
          language.colour = first.colour) := by
  obtain ⟨view, hrun, hadvances⟩ := run_advances (sound_new options) operations
  have hview : view.Sound := hadvances.sound
  refine ⟨view, hrun, fun place hplace language hlanguage ↦
    ⟨exists_row?_of_place hadvances hplace hlanguage, fun project feature hfeature hid ↦ ?_⟩, ?_⟩
  · obtain ⟨-, rfl⟩ := (mem_features_iff hview hplace project feature).mp ⟨hfeature, hid⟩
    exact fillColor_dot project hlanguage
  constructor
  · intro halike place hplace hshown language first hlanguage hfirst
    obtain ⟨row, known, -, -, hknown, hcolour, hdots⟩ := halike place hplace language hlanguage
    obtain rfl : first = known := Option.some.inj (hfirst.symm.trans hknown)
    let project : LatLng α → Point α := fun location ↦ ⟨location.lng, location.lat⟩
    obtain ⟨hdot, hid⟩ := (mem_features_iff hview hplace project _).mpr ⟨hshown, rfl⟩
    have hsame := hdots project _ hdot hid
    rw [fillColor_dot project hlanguage, hcolour] at hsame
    exact Option.some.inj hsame
  · intro hagree place hplace language hlanguage
    obtain ⟨row, first, hrow, hfirst, hdefinition, hcolour⟩ :=
      exists_row?_of_place hadvances hplace hlanguage
    refine ⟨row, first, hrow, hfirst, hdefinition, hcolour, fun project feature hfeature hid ↦ ?_⟩
    obtain ⟨hshown, rfl⟩ := (mem_features_iff hview hplace project feature).mp ⟨hfeature, hid⟩
    rw [fillColor_dot project hlanguage, hcolour,
      hagree place hplace hshown language first hlanguage hdefinition]

/-- A response lists English in red and has a place with a name in English in green. The row of
English is red then, and the dot of the place green. -/
theorem dot_unlike_row :
    let start : MapView Float := .new .standard
    let english : Language := ⟨1, "English", "red"⟩
    let perth : Place Float :=
      ⟨1, ⟨-31.95, 115.86⟩, [⟨"Perth", { english with colour := "green" }⟩], none, "town"⟩
    let operations := [.ingest { places := [perth], languages := [english] }]
    ∃ view, start.run operations = .ok view ∧ view.places = [perth] ∧
      view.filters.row? languageSection "1" = some ⟨"1", "English", some "red", true⟩ ∧
      view.language? 1 = some english ∧
      (∀ project, (view.features project).map (·.fillColor) = [some "green"]) ∧
      ¬view.AlikeInColour (definitions [] operations) := by
  intro start english perth operations
  obtain ⟨view, hrun, hadvances⟩ := run_advances (sound_new .standard) operations
  have hstart : start.run operations = .ok view := hrun
  have hplaces : view.places = [perth] := hadvances.places
  have hanswers : (start.run operations).toOption.map (fun view ↦
      (view.filters.row? languageSection "1", view.language? 1, view.shows perth)) =
        some (some ⟨"1", "English", some "red", true⟩, some english, true) := by
    decide +kernel
  simp only [hstart, Except.toOption, Option.map_some, Option.some.injEq, Prod.mk.injEq] at hanswers
  obtain ⟨hrow, hlanguage, hshown⟩ := hanswers
  have hfeatures (project : LatLng Float → Point Float) :
      view.features project = [dot project perth] := by
    rw [features, hplaces, List.filter_singleton, hshown]
    rfl
  refine ⟨view, hrun, hplaces, hrow, hlanguage, fun project ↦ ?_, fun halike ↦ ?_⟩
  · rw [hfeatures]
    rfl
  · obtain ⟨row, first, hfound, -, -, -, hdots⟩ := halike perth (by simp [hplaces]) _ rfl
    let project : LatLng Float → Point Float := fun location ↦ ⟨location.lng, location.lat⟩
    have hgreen := hdots project (dot project perth) (by simp [hfeatures]) rfl
    have hname : languageRow 1 = "1" := by decide +kernel
    have hsame : view.filters.row? languageSection (languageRow 1) = some row := hfound
    rw [hname, hrow] at hsame
    rw [← Option.some.inj hsame] at hgreen
    exact absurd hgreen (by decide)

end LabelledMap.MapView
