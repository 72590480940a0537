import LabelledMap.Decimal.Double
import LabelledMap.Proofs.View.Runs
import LabelledMap.Scalar.Double

/-!
# Which places are shown

A place is bound to two filter rows (`MapView.BoundTo`): that of its category, and that of the
language of its first name or the one for places without a name. A row that does not exist filters
nothing, so the filters do what they should only because both rows are there. They are in every view
that can be reached, also when a language came with a place only, or with metadata before it
(`MapView.exists_row?_of_mem`).

So a place is shown if both its rows are checked, and unchecking a row takes away the places that
are bound to it and no others (`MapView.shows_toggle`). `MapView.features_filtered` says so of the
features of every view that can be reached, and what toggling rows once more, or rows in another
order, leads to.
-/

set_option autoImplicit false

namespace LabelledMap.MapView

variable {α : Type}

/-! ### The rows of a place -/

/-- A filter row, given by the name of its section and its own, can hide a place. -/
inductive BoundTo (place : Place α) : String → String → Prop
  | language {first : PlaceName} {rest : List PlaceName} (hnames : place.names = first :: rest) :
    BoundTo place languageSection (languageRow first.language.id)
  | unnamed (hnames : place.names = []) : BoundTo place languageSection unnamedRow
  | category : BoundTo place categorySection place.category

/-- The rows that a place is bound to are the two that are asked for it. -/
theorem boundTo_iff {place : Place α} {part row : String} :
    BoundTo place part row ↔
      part = languageSection ∧ row = languageRowOf place ∨
        part = categorySection ∧ row = place.category := by
  constructor
  · intro hbound
    cases hbound with
    | language hnames => exact Or.inl ⟨rfl, by simp [languageRowOf, Place.language?, hnames]⟩
    | unnamed hnames => exact Or.inl ⟨rfl, by simp [languageRowOf, Place.language?, hnames]⟩
    | category => exact Or.inr ⟨rfl, rfl⟩
  · rintro (⟨rfl, rfl⟩ | ⟨rfl, rfl⟩)
    · cases hnames : place.names with
      | nil =>
        have hrow : languageRowOf place = unnamedRow := by
          simp [languageRowOf, Place.language?, hnames]
        exact hrow ▸ BoundTo.unnamed hnames
      | cons first rest =>
        have hrow : languageRowOf place = languageRow first.language.id := by
          simp [languageRowOf, Place.language?, hnames]
        exact hrow ▸ BoundTo.language hnames
    · exact BoundTo.category

instance (place : Place α) (part row : String) : Decidable (BoundTo place part row) :=
  decidable_of_iff _ boundTo_iff.symm

/-- A place is shown if the rows that it is bound to let it through. -/
theorem shows_iff_forall (view : MapView α) (place : Place α) :
    view.shows place = true ↔
      ∀ part row, BoundTo place part row → view.filters.isEnabled part row = true := by
  simp only [shows, Bool.and_eq_true, boundTo_iff]
  constructor
  · rintro ⟨hlanguage, hcategory⟩ part row (⟨rfl, rfl⟩ | ⟨rfl, rfl⟩)
    · exact hlanguage
    · exact hcategory
  · exact fun hall ↦ ⟨hall _ _ (Or.inl ⟨rfl, rfl⟩), hall _ _ (Or.inr ⟨rfl, rfl⟩)⟩

/-- The rows that a place is bound to exist. -/
theorem exists_row?_of_mem {view : MapView α} (hview : view.Sound) {place : Place α}
    (hplace : place ∈ view.places)
    (hlanguage : ∀ language, place.language? = some language →
      (view.language? language.id).isSome)
    {part row : String} (hbound : BoundTo place part row) :
    ∃ found, view.filters.row? part row = some found := by
  rw [← Option.isSome_iff_exists, FilterPanel.isSome_row?_iff]
  cases hbound with
  | @language first rest hnames =>
    refine (hview.languageRows.mem_languageRow_iff _).mpr (hlanguage first.language ?_)
    rw [Place.language?, hnames]
    rfl
  | unnamed hnames => exact (hview.languageRows.mem_iff _).mpr (Or.inr ⟨rfl, place, hplace, hnames⟩)
  | category => exact (hview.categoryRows.mem_iff _).mpr (List.mem_map_of_mem hplace)

/-! ### Toggling a row -/

/-- Unchecking a row hides the places that are bound to it. -/
theorem shows_toggle (view : MapView α) {part row : String}
    (hchecked : view.filters.checked? part row = some true) (place : Place α) :
    (view.toggle part row).2.shows place =
      (view.shows place && !decide (BoundTo place part row)) := by
  have henabled (otherPart other : String) :
      (view.toggle part row).2.filters.isEnabled otherPart other =
        (view.filters.isEnabled otherPart other && !decide (otherPart = part ∧ other = row)) := by
    unfold FilterPanel.isEnabled toggle
    rw [FilterPanel.checked?_toggle]
    split_ifs with hsame
    · simp [hsame, hchecked]
    · simp [hsame]
  rw [Bool.eq_iff_iff, shows_iff_forall, Bool.and_eq_true, shows_iff_forall]
  simp only [henabled, Bool.and_eq_true, Bool.not_eq_true', decide_eq_false_iff_not]
  constructor
  · exact fun hall ↦ ⟨fun other name hbound ↦ (hall other name hbound).1,
      fun hbound ↦ (hall part row hbound).2 ⟨rfl, rfl⟩⟩
  · rintro ⟨hall, hfree⟩ other name hbound
    exact ⟨hall other name hbound, fun hsame ↦ hfree (hsame.1 ▸ hsame.2 ▸ hbound)⟩

theorem toggle_toggle (view : MapView α) (part row : String) :
    ((view.toggle part row).2.toggle part row).2 = view := by
  unfold toggle
  simp only [FilterPanel.toggle_toggle]

theorem toggle_comm (view : MapView α) (part row otherPart other : String) :
    ((view.toggle part row).2.toggle otherPart other).2 =
      ((view.toggle otherPart other).2.toggle part row).2 := by
  unfold toggle
  simp only [view.filters.toggle_comm part row otherPart other]

/-- Toggling a row that does not exist answers nothing and does nothing. -/
theorem toggle_of_row?_eq_none {view : MapView α} {part row : String}
    (habsent : view.filters.row? part row = none) : view.toggle part row = (none, view) := by
  unfold toggle
  rw [FilterPanel.toggle_of_row?_eq_none habsent]

/-- The filters show the right places. Assumes: the view can be reached from a view without places.
The two rows that a place is bound to exist, and there is a dot for each place that has both
checked, in the order of the places, where the place is projected to and with its first name.
Unchecking a row takes away the dots of the places that are bound to it and leaves the others in
their order, and answers that the row is not checked. Toggling a row twice changes nothing, and
neither does toggling one that does not exist, which answers nothing; rows can be toggled in any
order. -/
theorem features_filtered [Scalar α] [Legible α] (view : MapView α) (hview : view.Reachable)
    (project : LatLng α → Point α) :
    (∀ place ∈ view.places, ∀ part row, BoundTo place part row →
      ∃ found, view.filters.row? part row = some found) ∧
      (view.features project = (view.places.filter view.shows).map (dot project) ∧
        (∀ place ∈ view.places, view.shows place = true ↔ ∀ part row, BoundTo place part row →
          ∃ found, view.filters.row? part row = some found ∧ found.checked = true) ∧
        ∀ place : Place α, (dot project place).id = place.id ∧
          (dot project place).shape = .circle (project place.location) 5 ∧
          (place.names = [] → (dot project place).label = some "") ∧
          ∀ first rest, place.names = first :: rest →
            (dot project place).label = some first.name) ∧
      (∀ part row found, view.filters.row? part row = some found → found.checked = true →
        (view.toggle part row).1 = some false ∧
          (view.toggle part row).2.filters.checked? part row = some false ∧
          (view.toggle part row).2.features project =
            ((view.places.filter view.shows).filter fun place ↦ ¬BoundTo place part row).map
              (dot project)) ∧
      (∀ part row, ((view.toggle part row).2.toggle part row).2 = view) ∧
      (∀ part row otherPart other, ((view.toggle part row).2.toggle otherPart other).2 =
        ((view.toggle otherPart other).2.toggle part row).2) ∧
      ∀ part row, view.filters.row? part row = none →
        view.filters.checked? part row = none ∧ view.toggle part row = (none, view) := by
  obtain ⟨options, operations, hrun⟩ := hview
  obtain ⟨last, hlast, hadvances⟩ := run_advances (sound_new options) operations
  obtain rfl : view = last := Except.ok.inj (hrun.symm.trans hlast)
  have hsound : view.Sound := hadvances.sound
  have hrows (place : Place α) (hplace : place ∈ view.places) (part row : String)
      (hbound : BoundTo place part row) : ∃ found, view.filters.row? part row = some found :=
    exists_row?_of_mem hsound hplace
      (fun _ hlanguage ↦ isSome_language?_of_mem hadvances hplace hlanguage) hbound
  refine ⟨hrows, ⟨rfl, ?shown, ?dots⟩, ?unchecked, view.toggle_toggle, view.toggle_comm, ?absent⟩
  case shown =>
    intro place hplace
    rw [shows_iff_forall]
    refine forall₃_congr fun part row hbound ↦ ?_
    obtain ⟨found, hfound⟩ := hrows place hplace part row hbound
    simp [FilterPanel.isEnabled, FilterPanel.checked?, hfound]
  case dots =>
    intro place
    refine ⟨rfl, rfl, fun hnames ↦ ?_, fun first rest hnames ↦ ?_⟩
    all_goals
      rw [dot, Place.label, hnames]
      rfl
  case unchecked =>
    intro part row found hfound htrue
    have hchecked : view.filters.checked? part row = some true := by
      rw [FilterPanel.checked?, hfound, Option.map_some, htrue]
    refine ⟨?answer, ?status, ?left⟩
    case answer =>
      change (view.filters.toggle part row).1 = _
      rw [FilterPanel.toggle_fst, hchecked]
      rfl
    case status =>
      change (view.filters.toggle part row).2.checked? part row = _
      rw [FilterPanel.checked?_toggle, if_pos ⟨rfl, rfl⟩, hchecked]
      rfl
    case left =>
      change ((view.places.filter (view.toggle part row).2.shows).map (dot project)) = _
      rw [List.filter_filter]
      congr 1
      refine List.filter_congr fun place _ ↦ ?_
      rw [shows_toggle view hchecked, Bool.and_comm, decide_not]
  case absent =>
    intro part row hnone
    rw [FilterPanel.checked?, hnone]
    exact ⟨rfl, toggle_of_row?_eq_none hnone⟩

/-- Of four places one is hidden by the row of its category, and two by that of their language, of
which the metadata told before. The fourth is in a language that came with it. -/
theorem features_filtered_unchecked :
    let start : MapView Float := .new .standard
    let english : Language := ⟨1, "English", "red"⟩
    let perth : Place Float := ⟨1, ⟨-31.95, 115.86⟩, [⟨"Perth", english⟩], none, "town"⟩
    let cossack : Place Float := ⟨2, ⟨-20.68, 117.19⟩, [⟨"Cossack", english⟩], none, "town"⟩
    let hill : Place Float := ⟨3, ⟨-21, 119⟩, [], none, "hill"⟩
    let karijini : Place Float :=
      ⟨4, ⟨-22.67, 118.29⟩, [⟨"Karijini", ⟨3, "Banyjima", "blue"⟩⟩], none, "range"⟩
    let operations := [.ingest { languages := [english] },
      .ingest { places := [perth, cossack, hill, karijini] }, .toggle categorySection "hill"]
    let project : LatLng Float → Point Float := fun place ↦ ⟨place.lng, -place.lat⟩
    ∃ view, start.run operations = .ok view ∧
      (view.features project).map (·.id) = [1, 2, 4] ∧
      let unchecked := (view.toggle languageSection "1").2
      (unchecked.features project).map (·.id) = [4] ∧
        (view.toggle languageSection "1").1 = some false ∧
        unchecked.filters.checked? languageSection "1" = some false ∧
        unchecked.features project =
          ((view.places.filter view.shows).filter fun place ↦
            ¬BoundTo place languageSection "1").map (dot project) ∧
        (unchecked.toggle languageSection "1").2 = view ∧
        view.toggle languageSection "2" = (none, view) := by
  intro start english perth cossack hill karijini operations project
  have hanswers : (start.run operations).toOption.map (fun view ↦
      (view.filters.row? languageSection "1", view.filters.row? languageSection "2",
        (view.features project).map (·.id),
        ((view.toggle languageSection "1").2.features project).map (·.id))) =
      some (some ⟨"1", "English", some "red", true⟩, none, [1, 2, 4], [4]) := by
    decide +kernel
  cases hrun : start.run operations with
  | error fault =>
    rw [hrun] at hanswers
    cases hanswers
  | ok view =>
    obtain ⟨-, -, hunchecked, htwice, -, habsent⟩ :=
      features_filtered view ⟨.standard, operations, hrun⟩ project
    simp only [hrun, Except.toOption, Option.map_some, Option.some.injEq, Prod.mk.injEq]
      at hanswers
    obtain ⟨hrow, hnone, hbefore, hafter⟩ := hanswers
    obtain ⟨hanswer, hchecked, hfeatures⟩ := hunchecked languageSection "1" _ hrow rfl
    exact ⟨view, rfl, hbefore, hafter, hanswer, hchecked, hfeatures, htwice languageSection "1",
      (habsent languageSection "2" hnone).2⟩

end LabelledMap.MapView
