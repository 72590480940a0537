import LabelledMap.Proofs.View.FirstCopies
import LabelledMap.Proofs.View.Rows

/-!
# Views that take in places

Taking in a response only ever appends. In a view that is `MapView.Sound` every response is taken
in, and the view grows (`MapView.ingest_spec`): the places that it did not know stand behind the old
ones in the order in which they came, each as its first copy says, with their markers behind those
still to be taken, and the filter panel extends the one before.

A view is sound if the cache, the order of arrival and the filter panel fit each other. Known places
and languages are passed over, so that a row is added only where there was none.
-/

set_option autoImplicit false

namespace LabelledMap.MapView

variable {α : Type} {view next last : MapView α} {place : Place α}

/-! ### Sound views -/

/-- The cache holds each place in the order of arrival under its identifier and no others, and the
panel has its two sections with the rows of the languages and places that are known. -/
structure Sound (view : MapView α) : Prop where
  order : view.places.map (·.id) = view.order
  nodup : view.order.Nodup
  cache : ∀ id, view.place? id = view.places.find? (·.id == id)
  sections : view.filters.ids = [languageSection, categorySection]
  languageRows : LanguageRows (view.filters.rows languageSection) view.language?
    (∃ place ∈ view.places, place.names = [])
  categoryRows : CategoryRows (view.filters.rows categorySection) (view.places.map (·.category))

theorem sound_new (options : MapOptions α) : (new options).Sound where
  order := rfl
  nodup := List.nodup_nil
  cache _ := rfl
  sections := rfl
  languageRows := LanguageRows.nil (fun _ ↦ rfl) fun ⟨_, hplace, _⟩ ↦ List.not_mem_nil hplace
  categoryRows := CategoryRows.nil

/-- Soundness is about the places, the languages and the filters. -/
theorem Sound.congr (hview : view.Sound) (hcache : next.cache = view.cache)
    (horder : next.order = view.order) (hlanguages : next.languages = view.languages)
    (hfilters : next.filters = view.filters) : next.Sound := by
  cases view
  cases next
  subst hcache horder hlanguages hfilters
  exact ⟨hview.order, hview.nodup, hview.cache, hview.sections, hview.languageRows,
    hview.categoryRows⟩

/-- The places that are known are those that have arrived. -/
theorem Sound.isSome_place?_iff (hview : view.Sound) (id : PlaceId) :
    (view.place? id).isSome ↔ id ∈ view.order := by
  rw [hview.cache, ← hview.order, List.find?_isSome]
  simp

theorem place?_append (view : MapView α) (place : Place α) (id : PlaceId) :
    (view.append place).place? id = if id = place.id then some place else view.place? id := by
  unfold place? append
  by_cases hid : id = place.id
  · simp [hid]
  · rw [List.lookup_cons, beq_false_of_ne hid, if_neg hid]

/-- A place that is not known stands behind the others. -/
theorem places_append (hfresh : place.id ∉ view.order) :
    (view.append place).places = view.places ++ [place] := by
  have hold : view.order.filterMap (view.append place).place? = view.places := by
    refine List.filterMap_congr fun id hid ↦ ?_
    rw [place?_append, if_neg]
    exact fun hsame ↦ hfresh (hsame ▸ hid)
  change (view.order ++ [place.id]).filterMap (view.append place).place? = _
  rw [List.filterMap_append, hold]
  simp [place?_append]

/-! ### Preparing for a place -/

/-- A language that is not known is added with its row. Assumes: the rows of languages show those
that are known. -/
theorem addLanguage_spec {unnamed : Prop} (hpart : languageSection ∈ view.filters.ids)
    (hrows : LanguageRows (view.filters.rows languageSection) view.language? unnamed)
    (language : Language) :
    ∃ filters languages, view.addLanguage language = .ok { view with filters, languages } ∧
      view.filters.Gains languageSection (rowOf (some language)) filters ∧
      ∀ id, languages.find? (·.id == id) =
        (view.language? id).or ([language].find? (·.id == id)) := by
  unfold addLanguage
  have hrow := hrows.mem_languageRow_iff language.id
  cases hknown : view.language? language.id with
  | some found =>
    rw [hknown] at hrow
    refine ⟨view.filters, view.languages, rfl, .of_mem (hrow.mpr rfl), fun id ↦ ?_⟩
    change view.language? id = _
    by_cases hid : language.id = id
    · rw [← hid, hknown, Option.some_or]
    · simp [hid]
  | none =>
    rw [hknown] at hrow
    have habsent : languageRow language.id ∉ (view.filters.rows languageSection).map (·.id) :=
      fun hmem ↦ by simpa using hrow.mp hmem
    obtain ⟨filters, hadded, hgains⟩ := FilterPanel.addRow_gains hpart habsent language.name
      (some language.colour)
    refine ⟨filters, view.languages ++ [language], ?_, hgains, fun id ↦ List.find?_append ..⟩
    rw [hadded]
    rfl

/-- A row that has to be there is gained. -/
theorem requireRow_spec {part : String} (hpart : part ∈ view.filters.ids) (row text : String) :
    ∃ filters, view.requireRow part row text = .ok { view with filters } ∧
      view.filters.Gains part ⟨row, text, none, true⟩ filters := by
  unfold requireRow
  have hrow := view.filters.isSome_row?_iff part row
  split_ifs with hfound
  · exact ⟨view.filters, rfl, .of_mem (hrow.mp hfound)⟩
  · obtain ⟨filters, hadded, hgains⟩ :=
      FilterPanel.addRow_gains hpart (fun hmem ↦ hfound (hrow.mpr hmem)) text none
    exact ⟨filters, by rw [hadded]; rfl, hgains⟩

/-- The row of a place's language is gained, and the language is known from then on. -/
theorem addLanguageOf_spec (hview : view.Sound) (place : Place α) :
    ∃ filters languages, view.addLanguageOf place = .ok { view with filters, languages } ∧
      view.filters.Gains languageSection (rowOf place.language?) filters ∧
      ∀ id, languages.find? (·.id == id) =
        (view.language? id).or (place.language?.toList.find? (·.id == id)) := by
  have hpart : languageSection ∈ view.filters.ids := hview.sections ▸ List.mem_cons_self
  unfold addLanguageOf
  cases place.language? with
  | some language => exact addLanguage_spec hpart hview.languageRows language
  | none =>
    obtain ⟨filters, hadded, hgains⟩ := requireRow_spec hpart unnamedRow "Unknown"
    exact ⟨filters, view.languages, hadded, hgains, fun id ↦ (Option.or_none ..).symm⟩

/-- Filters and languages that a view gets from the language and the category of a place. -/
structure Prepares (view : MapView α) (place : Place α) (filters : FilterPanel)
    (languages : List Language) : Prop where
  whole : view.filters.Extends filters
  languageRows : filters.rows languageSection =
    FilterPanel.withRow (view.filters.rows languageSection) (rowOf place.language?)
  categoryRows : filters.rows categorySection =
    FilterPanel.withRow (view.filters.rows categorySection)
      ⟨place.category, place.category, none, true⟩
  languages : ∀ id, languages.find? (·.id == id) =
    (view.language? id).or (place.language?.toList.find? (·.id == id))

/-- A place is added behind the others once the view has been prepared for it. -/
theorem addPlace_spec (hview : view.Sound) (place : Place α) :
    ∃ filters languages, view.addPlace place = .ok ({ view with filters, languages }.append place) ∧
      view.Prepares place filters languages := by
  obtain ⟨named, languages, hnamed, hgainsNamed, hlanguages⟩ := addLanguageOf_spec hview place
  let withLanguage : MapView α := { view with filters := named, languages }
  have hpart : categorySection ∈ withLanguage.filters.ids := by
    rw [hgainsNamed.whole.ids_eq, hview.sections]
    decide
  obtain ⟨filters, hsorted, hgains⟩ := requireRow_spec hpart place.category place.category
  refine ⟨filters, languages, ?_, hgainsNamed.whole.trans hgains.whole, ?_, ?_, hlanguages⟩
  · unfold addPlace
    rw [hnamed]
    change (withLanguage.requireRow categorySection place.category place.category).bind _ = _
    rw [hsorted]
    rfl
  · rw [hgains.others languageSection (by decide), hgainsNamed.rows]
  · rw [hgains.rows, hgainsNamed.others categorySection (by decide)]

/-! ### Views that grow -/

/-- The view after places that it did not know were added behind its own and their markers behind
those still to be taken, with new filter rows behind those that there were. Of the languages that
were offered it has learned those that it did not know, and the detail panel is as it was. -/
structure Grows (view : MapView α) (added : List (Place α)) (offered : List Language)
    (next : MapView α) : Prop where
  sound : next.Sound
  places : next.places = view.places ++ added
  fresh : ∀ place ∈ added, view.place? place.id = none
  kept : ∀ id place, view.place? id = some place → next.place? id = some place
  markers : next.markers =
    view.markers ++ added.map fun place ↦ ⟨place.id, place.location, place.icon⟩
  languages : ∀ id, next.language? id = (view.language? id).or (offered.find? (·.id == id))
  icons : ∀ name icon, view.icon? name = some icon → next.icon? name = some icon
  filters : view.filters.Extends next.filters
  detail : next.detail = view.detail

theorem Grows.refl (hview : view.Sound) : view.Grows [] [] view where
  sound := hview
  places := (List.append_nil _).symm
  fresh place hplace := by cases hplace
  kept _ _ hplace := hplace
  markers := (List.append_nil _).symm
  languages _ := Option.or_none.symm
  icons _ _ hicon := hicon
  filters := FilterPanel.Extends.refl _
  detail := rfl

theorem Grows.trans {first second : List (Place α)} {offered more : List Language}
    (hnext : view.Grows first offered next) (hlast : next.Grows second more last) :
    view.Grows (first ++ second) (offered ++ more) last where
  sound := hlast.sound
  places := by rw [hlast.places, hnext.places, List.append_assoc]
  fresh place hplace := by
    rcases List.mem_append.mp hplace with hfirst | hsecond
    · exact hnext.fresh place hfirst
    · cases hknown : view.place? place.id with
      | none => rfl
      | some found =>
        have hunknown := hlast.fresh place hsecond
        rw [hnext.kept _ _ hknown] at hunknown
        cases hunknown
  kept id place hplace := hlast.kept id place (hnext.kept id place hplace)
  markers := by rw [hlast.markers, hnext.markers, List.map_append, List.append_assoc]
  languages id := by
    rw [hlast.languages, hnext.languages, List.find?_append, Option.or_assoc]
  icons name icon hicon := hlast.icons name icon (hnext.icons name icon hicon)
  filters := hnext.filters.trans hlast.filters
  detail := hlast.detail.trans hnext.detail

/-- The order of arrival goes on with the new places. -/
theorem Grows.order {added : List (Place α)} {offered : List Language} (hview : view.Sound)
    (hgrows : view.Grows added offered next) : next.order = view.order ++ added.map (·.id) := by
  rw [← hgrows.sound.order, ← hview.order, hgrows.places, List.map_append]

/-- An icon is no place, language or filter row. -/
theorem addIcon_grows (hview : view.Sound) (name url : String) :
    view.Grows [] [] (view.addIcon name url) := by
  unfold addIcon
  split_ifs
  · exact Grows.refl hview
  · refine { Grows.refl hview with sound := hview.congr rfl rfl rfl rfl, icons := ?_ }
    intro other icon hicon
    unfold icon? at hicon ⊢
    rw [List.lookup_append, hicon, Option.some_or]

/-- The view with those icons whose names no icon has yet. -/
def addIcons (view : MapView α) (entries : List (String × String)) : MapView α :=
  entries.foldl (fun view (name, url) ↦ view.addIcon name url) view

theorem addIcons_grows (entries : List (String × String)) (hview : view.Sound) :
    view.Grows [] [] (view.addIcons entries) := by
  induction entries generalizing view with
  | nil => exact Grows.refl hview
  | cons entry entries ih =>
    have hentry := addIcon_grows hview entry.1 entry.2
    exact hentry.trans (ih hentry.sound)

theorem addLanguage_grows (hview : view.Sound) (language : Language) :
    ∃ next, view.addLanguage language = .ok next ∧ view.Grows [] [language] next := by
  obtain ⟨filters, languages, hadded, hgains, hlanguages⟩ :=
    addLanguage_spec (hview.sections ▸ List.mem_cons_self) hview.languageRows language
  have hsound : ({ view with filters, languages } : MapView α).Sound :=
    { order := hview.order
      nodup := hview.nodup
      cache := hview.cache
      sections := hgains.whole.ids_eq.trans hview.sections
      languageRows := hgains.rows ▸ hview.languageRows.addLanguage language hlanguages
      categoryRows := hgains.others categorySection (by decide) ▸ hview.categoryRows }
  exact ⟨_, hadded, { Grows.refl hview with
    sound := hsound, languages := hlanguages, filters := hgains.whole }⟩

theorem foldlM_addLanguage_grows (languages : List Language) (hview : view.Sound) :
    ∃ next, languages.foldlM addLanguage view = .ok next ∧ view.Grows [] languages next := by
  induction languages generalizing view with
  | nil => exact ⟨view, rfl, Grows.refl hview⟩
  | cons language languages ih =>
    obtain ⟨next, hnext, hgrows⟩ := addLanguage_grows hview language
    obtain ⟨last, hlast, hgrowsLast⟩ := ih hgrows.sound
    refine ⟨last, ?_, hgrows.trans hgrowsLast⟩
    rw [List.foldlM_cons, hnext]
    exact hlast

/-- A view that has been prepared for a place that it does not know stays sound with the place. -/
theorem Prepares.sound (hview : view.Sound) {filters : FilterPanel} {languages : List Language}
    (hprepares : view.Prepares place filters languages) (hfresh : place.id ∉ view.order) :
    ({ view with filters, languages }.append place).Sound := by
  have hplaces : ({ view with filters, languages }.append place).places = view.places ++ [place] :=
    places_append hfresh
  constructor
  case order =>
    rw [hplaces, List.map_append, hview.order]
    rfl
  case nodup => exact List.nodup_append.mpr ⟨hview.nodup, List.nodup_singleton _, by
    rintro id hid _ hother rfl
    exact hfresh (List.mem_singleton.mp hother ▸ hid)⟩
  case cache =>
    intro id
    rw [place?_append, hplaces, List.find?_append, ← hview.cache]
    change (if id = place.id then some place else view.place? id) = _
    by_cases hid : id = place.id
    · have hunknown : view.place? id = none := by
        rw [← Option.not_isSome_iff_eq_none, hview.isSome_place?_iff, hid]
        exact hfresh
      simp [hid, hid ▸ hunknown]
    · simp [hid, Ne.symm hid]
  case sections => exact hprepares.whole.ids_eq.trans hview.sections
  case languageRows =>
    simp only [hplaces, List.mem_append, List.mem_singleton, or_and_right, exists_or,
      exists_eq_left]
    change LanguageRows (filters.rows languageSection) (fun id ↦ languages.find? (·.id == id)) _
    rw [hprepares.languageRows]
    cases hnamed : place.language? with
    | some language =>
      have hnames : place.names ≠ [] := fun hnames ↦ by simp [Place.language?, hnames] at hnamed
      rw [or_iff_left hnames]
      refine hview.languageRows.addLanguage language fun id ↦ ?_
      rw [hprepares.languages, hnamed]
      rfl
    | none =>
      have hnames : place.names = [] := by simpa [Place.language?] using hnamed
      have hsame : (fun id ↦ languages.find? (·.id == id)) = view.language? := funext fun id ↦ by
        rw [hprepares.languages, hnamed]
        exact Option.or_none
      rw [hsame, eq_true (Or.inr hnames)]
      exact hview.languageRows.addUnnamed
  case categoryRows =>
    rw [hplaces, List.map_append]
    exact hprepares.categoryRows ▸ hview.categoryRows.add place.category

/-- A place that is not known is added. -/
theorem addPlace_grows (hview : view.Sound) (hfresh : place.id ∉ view.order) :
    ∃ next, view.addPlace place = .ok next ∧ view.Grows [place] place.language?.toList next := by
  obtain ⟨filters, languages, hadded, hprepares⟩ := addPlace_spec hview place
  have hunknown : view.place? place.id = none := by
    rw [← Option.not_isSome_iff_eq_none, hview.isSome_place?_iff]
    exact hfresh
  refine ⟨_, hadded, ?_⟩
  constructor
  case sound => exact hprepares.sound hview hfresh
  case places => exact places_append hfresh
  case fresh =>
    intro other hother
    rwa [List.mem_singleton.mp hother]
  case kept =>
    intro id other hother
    rw [place?_append, if_neg]
    · exact hother
    · rintro rfl
      rw [hunknown] at hother
      cases hother
  case markers => rfl
  case languages => exact hprepares.languages
  case icons => exact fun _ _ hicon ↦ hicon
  case filters => exact hprepares.whole
  case detail => rfl

/-- The first copies of those places that are not among the known ones. -/
def newcomers (known : List PlaceId) (places : List (Place α)) : List (Place α) :=
  firstCopies (·.id) (places.filter fun place ↦ place.id ∉ known)

theorem newcomers_nil (places : List (Place α)) :
    newcomers [] places = firstCopies (·.id) places := by
  simp [newcomers]

theorem newcomers_congr {known other : List PlaceId} (hsame : ∀ id, id ∈ known ↔ id ∈ other)
    (places : List (Place α)) : newcomers known places = newcomers other places := by
  unfold newcomers
  congr 2
  funext place
  simp only [hsame]

/-- Known places and newcomers together are the known places and those that have come. -/
theorem mem_append_newcomers (known : List PlaceId) (places : List (Place α)) (id : PlaceId) :
    id ∈ known ++ (newcomers known places).map (·.id) ↔ id ∈ known ++ places.map (·.id) := by
  unfold newcomers
  rw [List.mem_append, List.mem_append, mem_map_firstCopies]
  by_cases hknown : id ∈ known
  · simp [hknown]
  · simp only [hknown, false_or, List.mem_map, List.mem_filter, decide_eq_true_eq]
    exact exists_congr fun place ↦
      ⟨fun ⟨hplace, hid⟩ ↦ ⟨hplace.1, hid⟩, fun ⟨hplace, hid⟩ ↦ ⟨⟨hplace, hid ▸ hknown⟩, hid⟩⟩

/-- After some places have come, the newcomers are those that neither were known before nor have
come. -/
theorem newcomers_append (known : List PlaceId) (places more : List (Place α)) :
    newcomers known (places ++ more) =
      newcomers known places ++
        newcomers (known ++ (newcomers known places).map (·.id)) more := by
  unfold newcomers
  rw [List.filter_append, firstCopies_append, List.filter_filter]
  congr 2
  refine List.filter_congr fun place _ ↦ ?_
  simp only [List.mem_append, mem_map_firstCopies, not_or, Bool.decide_and, Bool.and_comm]

theorem newcomers_cons_of_mem {known : List PlaceId} (hknown : place.id ∈ known)
    (rest : List (Place α)) : newcomers known (place :: rest) = newcomers known rest := by
  unfold newcomers
  rw [List.filter_cons_of_neg (by simpa using hknown)]

theorem newcomers_cons_of_not_mem {known : List PlaceId} (hfresh : place.id ∉ known)
    (rest : List (Place α)) :
    newcomers known (place :: rest) = place :: newcomers (known ++ [place.id]) rest := by
  have hfirst : newcomers known [place] = [place] := by
    unfold newcomers
    rw [List.filter_cons_of_pos (by simpa using hfresh)]
    rfl
  rw [← List.singleton_append, newcomers_append, hfirst]
  rfl

/-- Places are taken in: the first copies of those that are not known are added and counted. -/
theorem addPlaces_grows (hview : view.Sound) (places : List (Place α)) :
    ∃ next, view.addPlaces places = .ok ((newcomers view.order places).length, next) ∧
      view.Grows (newcomers view.order places)
        ((newcomers view.order places).filterMap (·.language?)) next := by
  induction places generalizing view with
  | nil => exact ⟨view, rfl, Grows.refl hview⟩
  | cons place rest ih =>
    unfold addPlaces
    by_cases hknown : place.id ∈ view.order
    · rw [if_pos ((hview.isSome_place?_iff _).mpr hknown), newcomers_cons_of_mem hknown]
      exact ih hview
    · obtain ⟨next, hnext, hgrows⟩ := addPlace_grows hview hknown
      obtain ⟨last, hlast, hgrowsLast⟩ := ih hgrows.sound
      have horder : next.order = view.order ++ [place.id] := hgrows.order hview
      rw [if_neg (mt (hview.isSome_place?_iff _).mp hknown), newcomers_cons_of_not_mem hknown,
        ← horder]
      refine ⟨last, ?_, ?_⟩
      · simp only [hnext, hlast, bind, Except.bind]
        rfl
      · have hoffered : (place :: newcomers next.order rest).filterMap (·.language?) =
            place.language?.toList ++ (newcomers next.order rest).filterMap (·.language?) := by
          rw [List.filterMap_cons]
          cases place.language? <;> rfl
        rw [hoffered]
        exact hgrows.trans hgrowsLast

/-- A response is taken in where its icons and languages and then its places are. -/
theorem ingest_eq {ready : MapView α} {new : Nat} (response : Response α)
    (hready : response.languages.foldlM addLanguage (view.addIcons response.icons.entries) =
      .ok ready)
    (hplaces : ready.addPlaces response.places = .ok (new, next)) :
    view.ingest response = .ok (⟨response.places.length, new, next.count⟩, next.settle) := by
  unfold addIcons at hready
  simp only [ingest, hready, hplaces, bind, Except.bind]
  rfl

/-- Every response is taken in, and the view grows by the places that it did not know, each as its
first copy in the response says. -/
theorem ingest_spec (hview : view.Sound) (response : Response α) :
    let added := newcomers view.order response.places
    ∃ next, view.ingest response =
        .ok (⟨response.places.length, added.length, next.count⟩, next) ∧
      view.Grows added (response.languages ++ added.filterMap (·.language?)) next := by
  intro added
  have hicons := addIcons_grows response.icons.entries hview
  obtain ⟨withLanguages, hlanguages, hgrowsLanguages⟩ :=
    foldlM_addLanguage_grows response.languages hicons.sound
  have hbefore : view.Grows [] response.languages withLanguages := hicons.trans hgrowsLanguages
  obtain ⟨withPlaces, hplaces, hgrowsPlaces⟩ :=
    addPlaces_grows hgrowsLanguages.sound response.places
  have hsettled : withPlaces.Grows [] [] withPlaces.settle :=
    { Grows.refl hgrowsPlaces.sound with sound := hgrowsPlaces.sound.congr rfl rfl rfl rfl }
  have hnewcomers : newcomers withLanguages.order response.places = added := by
    rw [hbefore.order hview, List.map_nil, List.append_nil]
  have hgrows := (hbefore.trans hgrowsPlaces).trans hsettled
  simp only [hnewcomers, List.nil_append, List.append_nil] at hgrows
  have hingest := ingest_eq response hlanguages hplaces
  rw [hnewcomers] at hingest
  exact ⟨withPlaces.settle, hingest, hgrows⟩

theorem ingest_grows (hview : view.Sound) (response : Response α) :
    ∃ summary next added, view.ingest response = .ok (summary, next) ∧
      view.Grows added (response.languages ++ added.filterMap (·.language?)) next ∧
      added.Sublist response.places := by
  obtain ⟨next, hnext, hgrows⟩ := ingest_spec hview response
  exact ⟨_, next, _, hnext, hgrows, (firstCopies_sublist _ _).trans List.filter_sublist⟩

end LabelledMap.MapView
