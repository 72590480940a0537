import LabelledMap.Decimal.Double
import LabelledMap.Proofs.View.Runs
import LabelledMap.Scalar.Double

/-!
# Responses in pages and responses again

It makes no difference whether places come in one response or in two with the same icons and
languages, and none whether a response comes again (`MapView.ingest_paged`). The places of a list
are taken in one after the other (`MapView.addPlaces_append`), whether or not something is being
loaded (`MapView.addPlaces_settle`); and what a view knows already, it passes over.
-/

set_option autoImplicit false

namespace LabelledMap.MapView

variable {α : Type} {view next : MapView α} {icons : Dictionary String} {languages : List Language}
  {places : List (Place α)}

/-! ### Places in two lists -/

/-- Places of two lists are taken in one list after the other, and counted together. -/
theorem addPlaces_append (view : MapView α) (places more : List (Place α)) :
    view.addPlaces (places ++ more) = (view.addPlaces places).bind fun (new, next) ↦
      (next.addPlaces more).map fun (others, last) ↦ (new + others, last) := by
  induction places generalizing view with
  | nil =>
    change view.addPlaces more = (view.addPlaces more).map fun (others, last) ↦ (0 + others, last)
    cases view.addPlaces more with
    | error fault => rfl
    | ok outcome => simp [Except.map]
  | cons place rest ih =>
    rw [List.cons_append, addPlaces, addPlaces]
    split_ifs
    · exact ih view
    · cases view.addPlace place with
      | error fault => rfl
      | ok next =>
        change (next.addPlaces (rest ++ more)).bind _ = ((next.addPlaces rest).bind _).bind _
        rw [ih]
        cases next.addPlaces rest with
        | error fault => rfl
        | ok outcome =>
          change ((outcome.2.addPlaces more).map _).bind _ = (outcome.2.addPlaces more).map _
          cases outcome.2.addPlaces more with
          | error fault => rfl
          | ok last => simp [Except.map, Except.bind, pure, Except.pure, Nat.add_right_comm]

/-! ### Loading or not -/

@[simp] theorem filters_settle (view : MapView α) : view.settle.filters = view.filters := rfl

@[simp] theorem place?_settle (view : MapView α) (id : PlaceId) :
    view.settle.place? id = view.place? id := rfl

@[simp] theorem language?_settle (view : MapView α) (id : LanguageId) :
    view.settle.language? id = view.language? id := rfl

theorem addLanguage_settle (view : MapView α) (language : Language) :
    view.settle.addLanguage language = (view.addLanguage language).map settle := by
  unfold addLanguage
  rw [language?_settle, filters_settle]
  split_ifs
  · rfl
  · cases view.filters.addRow _ _ _ _ <;> rfl

theorem requireRow_settle (view : MapView α) (part row text : String) :
    view.settle.requireRow part row text = (view.requireRow part row text).map settle := by
  unfold requireRow
  rw [filters_settle]
  split_ifs
  · rfl
  · cases view.filters.addRow _ _ _ _ <;> rfl

theorem addLanguageOf_settle (view : MapView α) (place : Place α) :
    view.settle.addLanguageOf place = (view.addLanguageOf place).map settle := by
  unfold addLanguageOf
  cases place.language? with
  | some language => exact addLanguage_settle view language
  | none => exact requireRow_settle view _ _ _

theorem addPlace_settle (view : MapView α) (place : Place α) :
    view.settle.addPlace place = (view.addPlace place).map settle := by
  unfold addPlace
  rw [addLanguageOf_settle]
  cases view.addLanguageOf place with
  | error fault => rfl
  | ok named =>
    change (named.settle.requireRow _ _ _).bind _ = ((named.requireRow _ _ _).bind _).map settle
    rw [requireRow_settle]
    cases named.requireRow categorySection place.category place.category <;> rfl

theorem addPlaces_settle (view : MapView α) (places : List (Place α)) :
    view.settle.addPlaces places =
      (view.addPlaces places).map fun (new, next) ↦ (new, next.settle) := by
  induction places generalizing view with
  | nil => rfl
  | cons place rest ih =>
    rw [addPlaces, addPlaces, place?_settle]
    split_ifs
    · exact ih view
    · rw [addPlace_settle]
      cases view.addPlace place with
      | error fault => rfl
      | ok next =>
        change (next.settle.addPlaces rest).bind _ = ((next.addPlaces rest).bind _).map _
        rw [ih]
        cases next.addPlaces rest <;> rfl

/-! ### What is known is passed over -/

/-- The view has icons and languages of these names and numbers. -/
structure Knows (view : MapView α) (icons : Dictionary String) (languages : List Language) :
    Prop where
  icons : ∀ entry ∈ icons.entries, (view.icon? entry.1).isSome
  languages : ∀ language ∈ languages, (view.language? language.id).isSome

theorem Knows.grows {added : List (Place α)} {offered : List Language}
    (hknows : view.Knows icons languages) (hgrows : view.Grows added offered next) :
    next.Knows icons languages where
  icons entry hentry := by
    obtain ⟨icon, hicon⟩ := Option.isSome_iff_exists.mp (hknows.icons entry hentry)
    rw [hgrows.icons entry.1 icon hicon]
    rfl
  languages language hlanguage := by
    rw [hgrows.languages, Option.isSome_or, hknows.languages language hlanguage, Bool.true_or]

theorem addIcons_of_known (entries : List (String × String))
    (hknown : ∀ entry ∈ entries, (view.icon? entry.1).isSome) : view.addIcons entries = view := by
  induction entries with
  | nil => rfl
  | cons entry entries ih =>
    have hentry : view.addIcon entry.1 entry.2 = view := if_pos (hknown entry List.mem_cons_self)
    change (view.addIcon entry.1 entry.2).addIcons entries = view
    rw [hentry]
    exact ih fun other hother ↦ hknown other (List.mem_cons_of_mem _ hother)

theorem foldlM_addLanguage_of_known (languages : List Language)
    (hknown : ∀ language ∈ languages, (view.language? language.id).isSome) :
    languages.foldlM addLanguage view = .ok view := by
  induction languages with
  | nil => rfl
  | cons language languages ih =>
    have hlanguage : view.addLanguage language = .ok view :=
      if_pos (hknown language List.mem_cons_self)
    rw [List.foldlM_cons, hlanguage]
    exact ih fun other hother ↦ hknown other (List.mem_cons_of_mem _ hother)

theorem addPlaces_of_known (places : List (Place α))
    (hknown : ∀ place ∈ places, (view.place? place.id).isSome) :
    view.addPlaces places = .ok (0, view) := by
  induction places with
  | nil => rfl
  | cons place places ih =>
    rw [addPlaces, if_pos (hknown place List.mem_cons_self)]
    exact ih fun other hother ↦ hknown other (List.mem_cons_of_mem _ hother)

/-- A response whose icons and languages are known comes down to its places. -/
theorem Knows.ingest_of_addPlaces (hknows : view.Knows icons languages) {new : Nat}
    (hplaces : view.addPlaces places = .ok (new, next)) :
    view.ingest { places, icons, languages } =
      .ok (⟨places.length, new, next.count⟩, next.settle) := by
  refine ingest_eq { places, icons, languages } ?_ hplaces
  rw [addIcons_of_known _ hknows.icons]
  exact foldlM_addLanguage_of_known _ hknows.languages

theorem isSome_icon?_addIcons (entries : List (String × String)) (hview : view.Sound) :
    ∀ entry ∈ entries, ((view.addIcons entries).icon? entry.1).isSome := by
  induction entries generalizing view with
  | nil => exact fun entry hentry ↦ by cases hentry
  | cons first entries ih =>
    have hfirst : ((view.addIcon first.1 first.2).icon? first.1).isSome := by
      unfold addIcon
      split_ifs with hknown
      · exact hknown
      · simp [icon?, List.lookup_append]
    have hsound := (addIcon_grows hview first.1 first.2).sound
    intro entry hentry
    rcases List.mem_cons.mp hentry with rfl | hrest
    · obtain ⟨icon, hicon⟩ := Option.isSome_iff_exists.mp hfirst
      have hkept := (addIcons_grows entries hsound).icons _ icon hicon
      exact Option.isSome_iff_exists.mpr ⟨icon, hkept⟩
    · exact ih hsound entry hrest

/-- There is a view that knows the icons and languages of a response, from which places are taken in
as they are from the view itself by a response with these icons and languages. -/
theorem exists_knows (hview : view.Sound) (icons : Dictionary String) (languages : List Language) :
    ∃ ready : MapView α, ready.Sound ∧ ready.Knows icons languages ∧ ∀ places new next,
      ready.addPlaces places = .ok (new, next) →
        view.ingest { places, icons, languages } =
          .ok (⟨places.length, new, next.count⟩, next.settle) := by
  have hicons := addIcons_grows icons.entries hview
  obtain ⟨ready, hready, hgrows⟩ := foldlM_addLanguage_grows languages hicons.sound
  refine ⟨ready, hgrows.sound, ?_, fun places new next hplaces ↦ ?_⟩
  · constructor
    case icons =>
      intro entry hentry
      obtain ⟨icon, hicon⟩ :=
        Option.isSome_iff_exists.mp (isSome_icon?_addIcons icons.entries hview entry hentry)
      rw [hgrows.icons _ icon hicon]
      rfl
    case languages =>
      intro language hlanguage
      rw [hgrows.languages, Option.isSome_or, Bool.or_eq_true, List.find?_isSome]
      exact Or.inr ⟨language, hlanguage, beq_self_eq_true _⟩
  · exact ingest_eq { places, icons, languages } hready hplaces

/-! ### Two pages, and the same page twice -/

/-- Places in two responses with the same icons and languages are taken in as in one. -/
theorem ingest_append (hview : view.Sound) (icons : Dictionary String) (languages : List Language)
    (places more : List (Place α)) :
    ∃ first middle second last,
      view.ingest { places, icons, languages } = .ok (first, middle) ∧
        middle.ingest { places := more, icons, languages } = .ok (second, last) ∧
        view.ingest { places := places ++ more, icons, languages } =
          .ok (⟨first.received + second.received, first.new + second.new, second.total⟩, last) := by
  obtain ⟨ready, hready, hknows, hingest⟩ := exists_knows hview icons languages
  obtain ⟨middle, hmiddle, hgrows⟩ := addPlaces_grows hready places
  obtain ⟨last, hlast, -⟩ := addPlaces_grows hgrows.sound more
  have hsettled : middle.settle.addPlaces more =
      .ok ((newcomers middle.order more).length, last.settle) := by
    rw [addPlaces_settle, hlast]
    rfl
  have hwhole : ready.addPlaces (places ++ more) = .ok
      ((newcomers ready.order places).length + (newcomers middle.order more).length, last) := by
    rw [addPlaces_append, hmiddle]
    change (middle.addPlaces more).map _ = _
    rw [hlast]
    rfl
  have hknowsMiddle : middle.settle.Knows icons languages :=
    ⟨(hknows.grows hgrows).icons, (hknows.grows hgrows).languages⟩
  refine ⟨_, _, _, _, hingest _ _ _ hmiddle, hknowsMiddle.ingest_of_addPlaces hsettled, ?_⟩
  rw [hingest _ _ _ hwhole, List.length_append]
  rfl

/-- The view has all that a response brings, and nothing is being loaded. -/
structure Holds (view : MapView α) (response : Response α) : Prop where
  knows : view.Knows response.icons response.languages
  places : ∀ place ∈ response.places, (view.place? place.id).isSome
  settled : view.settle = view

/-- A response of which the view has everything changes nothing. -/
theorem Holds.ingest {response : Response α} (hholds : view.Holds response) :
    view.ingest response = .ok (⟨response.places.length, 0, view.count⟩, view) := by
  have hingest := hholds.knows.ingest_of_addPlaces (addPlaces_of_known _ hholds.places)
  rwa [hholds.settled] at hingest

/-- A response that was taken in has brought everything. -/
theorem holds_ingest (hview : view.Sound) (response : Response α) :
    ∃ summary next, view.ingest response = .ok (summary, next) ∧ next.Holds response := by
  obtain ⟨ready, hready, hknows, hingest⟩ := exists_knows hview response.icons response.languages
  obtain ⟨next, hnext, hgrows⟩ := addPlaces_grows hready response.places
  have hsound : next.settle.Sound := hgrows.sound.congr rfl rfl rfl rfl
  refine ⟨_, next.settle, hingest _ _ _ hnext, ?_, fun place hplace ↦ ?_, rfl⟩
  · exact ⟨(hknows.grows hgrows).icons, (hknows.grows hgrows).languages⟩
  · have harrived : place.id ∈ ready.order ++ response.places.map (·.id) :=
      List.mem_append_right _ (List.mem_map_of_mem hplace)
    rw [hsound.isSome_place?_iff]
    change place.id ∈ next.order
    rwa [hgrows.order hready, mem_append_newcomers]

variable [Legible α]

/-- Toggling a row and taking markers leaves all that a response has brought. -/
theorem Holds.apply {response : Response α} {operation : Operation α}
    (hholds : view.Holds response)
    (hoperation : operation = .takeMarkers ∨ ∃ part row, operation = .toggle part row) :
    ∃ next, operation.apply view = .ok next ∧ next.Holds response := by
  rcases hoperation with rfl | ⟨part, row, rfl⟩
  · refine ⟨_, rfl, ⟨hholds.knows.icons, hholds.knows.languages⟩, hholds.places, ?_⟩
    exact congrArg (fun view : MapView α ↦ view.takeMarkers.2) hholds.settled
  · refine ⟨_, rfl, ⟨hholds.knows.icons, hholds.knows.languages⟩, hholds.places, ?_⟩
    exact congrArg (fun view : MapView α ↦ (view.toggle part row).2) hholds.settled

theorem Holds.run {response : Response α} (operations : List (Operation α))
    (hholds : view.Holds response)
    (hoperations : ∀ operation ∈ operations,
      operation = .takeMarkers ∨ ∃ part row, operation = .toggle part row) :
    ∃ later, view.run operations = .ok later ∧ later.Holds response := by
  induction operations generalizing view with
  | nil => exact ⟨view, rfl, hholds⟩
  | cons operation rest ih =>
    obtain ⟨next, hnext, hholdsNext⟩ := hholds.apply (hoperations operation List.mem_cons_self)
    obtain ⟨later, hlater, hholdsLater⟩ :=
      ih hholdsNext fun other hother ↦ hoperations other (List.mem_cons_of_mem _ hother)
    exact ⟨later, (run_cons hnext rest).trans hlater, hholdsLater⟩

/-- Responses may be split and may be repeated. Assumes: the view can be reached from a view without
places. Places that come in two responses, both with the same icons and languages, leave the view in
the same state as if they had come in one, and the new ones are as many. A response that comes again
after some rows were toggled and markers taken changes nothing, and none of its places is new. -/
theorem ingest_paged (view : MapView α) (hview : view.Reachable) :
    (∀ icons languages (places more : List (Place α)), ∃ first middle second last,
      view.ingest { places, icons, languages } = .ok (first, middle) ∧
        middle.ingest { places := more, icons, languages } = .ok (second, last) ∧
        view.ingest { places := places ++ more, icons, languages } =
          .ok (⟨first.received + second.received, first.new + second.new, second.total⟩, last)) ∧
      ∀ response, ∃ summary next, view.ingest response = .ok (summary, next) ∧
        ∀ between : List (Operation α),
          (∀ operation ∈ between,
            operation = .takeMarkers ∨ ∃ part row, operation = .toggle part row) →
          ∃ later, next.run between = .ok later ∧
            later.ingest response = .ok (⟨response.places.length, 0, later.count⟩, later) := by
  refine ⟨ingest_append hview.sound, fun response ↦ ?_⟩
  obtain ⟨summary, next, hnext, hholds⟩ := holds_ingest hview.sound response
  refine ⟨summary, next, hnext, fun between hbetween ↦ ?_⟩
  obtain ⟨later, hlater, hholdsLater⟩ := hholds.run between hbetween
  exact ⟨later, hlater, hholdsLater.ingest⟩

/-- A language that the user has switched off is listed anew with another colour, and the second
page holds copies of the place in the first page and of one long known, the former with yet another
colour of its language. In two pages as in one there are two new places, and the page again brings
nothing after a category was switched off and the markers were taken. -/
theorem ingest_paged_redefined :
    let start : MapView Float := .new .standard
    let english : Language := ⟨1, "English", "red"⟩
    let banyjima : Language := ⟨3, "Banyjima", "blue"⟩
    let perth : Place Float := ⟨1, ⟨-31.95, 115.86⟩, [⟨"Perth", english⟩], none, "town"⟩
    let karijini : Place Float := ⟨2, ⟨-22.67, 118.29⟩, [⟨"Karijini", banyjima⟩], none, "range"⟩
    let copy : Place Float :=
      { karijini with names := [⟨"Karijini", { banyjima with colour := "brown" }⟩] }
    let unnamed : Place Float := ⟨3, ⟨-21, 119⟩, [], none, "range"⟩
    let more := [copy, perth, unnamed, unnamed]
    let languages := [{ english with colour := "green" }]
    ∃ view first middle second last later,
      start.run [.ingest { places := [perth] }, .toggle "lang" "1"] = .ok view ∧
        view.ingest { places := [karijini], languages } = .ok (first, middle) ∧
        middle.ingest { places := more, languages } = .ok (second, last) ∧
        view.ingest { places := [karijini] ++ more, languages } = .ok (⟨5, 2, 3⟩, last) ∧
        last.run [.toggle "category" "range", .takeMarkers] = .ok later ∧
        later.ingest { places := [karijini] ++ more, languages } =
          .ok (⟨5, 0, later.count⟩, later) := by
  intro start english banyjima perth karijini copy unnamed more languages
  have hsummary :
      ((start.run [.ingest { places := [perth] }, .toggle "lang" "1"]).toOption.bind fun view ↦
        (view.ingest { places := [karijini] ++ more, languages }).toOption.map Prod.fst) =
          some ⟨5, 2, 3⟩ := by
    decide +kernel
  cases hrun : start.run [.ingest { places := [perth] }, .toggle "lang" "1"] with
  | error fault =>
    rw [hrun] at hsummary
    cases hsummary
  | ok view =>
    obtain ⟨hpages, hagain⟩ := ingest_paged view ⟨.standard, _, hrun⟩
    obtain ⟨first, middle, second, last, hfirst, hsecond, hwhole⟩ :=
      hpages ∅ languages [karijini] more
    obtain ⟨summary, next, hnext, hbetween⟩ :=
      hagain { places := [karijini] ++ more, languages }
    obtain ⟨later, hlater, hlaterAgain⟩ :=
      hbetween [.toggle "category" "range", .takeMarkers] (by simp)
    rw [hwhole] at hnext
    obtain ⟨-, rfl⟩ := Prod.mk.inj (Except.ok.inj hnext)
    simp only [hrun, hwhole, Except.toOption, Option.bind_some, Option.map_some,
      Option.some.injEq] at hsummary
    rw [hsummary] at hwhole
    exact ⟨view, first, middle, second, last, later, rfl, hfirst, hsecond, hwhole, hlater,
      hlaterAgain⟩

end LabelledMap.MapView
