import LabelledMap.Proofs.View.Ingest

/-!
# Runs of a view

Everything that can be done to a view, in any order. A `MapView.Operation` is one call that may
change it, and `MapView.run` applies a list of them; a response that is not taken in would end the
run. No run is ended, and what it has added to the view is told by what its operations have received
(`MapView.run_advances`). The views that runs lead to from a new one are `MapView.Reachable`, and
each of them is sound (`MapView.Reachable.sound`).
-/

set_option autoImplicit false

namespace LabelledMap.MapView

variable {α : Type} [Legible α] {view next : MapView α}

/-- A call that may change a view. -/
inductive Operation (α : Type) where
  | assignOptions (options : MapOptions α)
  | request (area : Area α)
  | requestFailed (message : String)
  | ingest (response : Response α)
  | takeMarkers
  | toggle (part row : String)
  | openDetail (id : Option PlaceId)
  | receiveDetail (id : PlaceId) (html : String)
  | failDetail (id : PlaceId) (message : String)
  | clickMap

/-- The view after an operation. -/
def Operation.apply (view : MapView α) : Operation α → Except UnknownSection (MapView α)
  | assignOptions options => .ok { view with options }
  | request area => .ok (view.request area).2
  | requestFailed message => .ok (view.requestFailed message)
  | ingest response => (view.ingest response).map Prod.snd
  | takeMarkers => .ok view.takeMarkers.2
  | toggle part row => .ok (view.toggle part row).2
  | openDetail id => .ok (view.openDetail id).2
  | receiveDetail id html => .ok (view.receiveDetail id html).2
  | failDetail id message => .ok (view.failDetail id message).2
  | clickMap => .ok view.clickMap

/-- The view after operations in order. -/
def run (view : MapView α) (operations : List (Operation α)) : Except UnknownSection (MapView α) :=
  operations.foldlM Operation.apply view

theorem run_cons {operation : Operation α} (hnext : operation.apply view = .ok next)
    (rest : List (Operation α)) : view.run (operation :: rest) = next.run rest := by
  unfold run
  rw [List.foldlM_cons, hnext]
  rfl

/-- Further operations are applied to the view that the operations before lead to. -/
theorem run_append {operations : List (Operation α)} (hrun : view.run operations = .ok next)
    (further : List (Operation α)) : view.run (operations ++ further) = next.run further := by
  unfold run at hrun ⊢
  rw [List.foldlM_append, hrun]
  rfl

/-- A view that operations lead to from a view without places. -/
def Reachable (view : MapView α) : Prop :=
  ∃ options operations, (new options).run operations = .ok view

omit [Legible α] in
/-- Toggling keeps what stands in the rows. -/
theorem sound_toggle (hview : view.Sound) (part row : String) :
    (view.toggle part row).2.Sound where
  order := hview.order
  nodup := hview.nodup
  cache := hview.cache
  sections := by
    change (view.filters.toggle part row).2.ids = _
    rw [FilterPanel.toggle_snd, FilterPanel.ids_modify _ _ (·.toggle row) fun _ ↦ rfl]
    exact hview.sections
  languageRows := by
    change LanguageRows ((view.filters.toggle part row).2.rows languageSection) _ _
    rw [FilterPanel.rows_toggle hview.languageRows.nodup]
    refine hview.languageRows.map ?_ ?_ ?_
    all_goals
      intro found
      split_ifs <;> rfl
  categoryRows := by
    change CategoryRows ((view.filters.toggle part row).2.rows categorySection) _
    rw [FilterPanel.rows_toggle hview.categoryRows.nodup]
    refine hview.categoryRows.map fun found ↦ ?_
    split_ifs <;> rfl

/-- The response that an operation takes in; all but one take in nothing. -/
def Operation.response : Operation α → Response α
  | ingest response => response
  | _ => {}

/-- The markers that an operation hands over. -/
def Operation.taken (view : MapView α) : Operation α → List (Marker α)
  | takeMarkers => view.takeMarkers.1
  | _ => []

/-- The languages that an operation brings, given the places that are known before it: those that
its response lists, then those of the places in it that are new. -/
def Operation.definitions (known : List PlaceId) (operation : Operation α) : List Language :=
  operation.response.languages ++
    (newcomers known operation.response.places).filterMap (·.language?)

/-! ### What runs add -/

/-- The places that operations receive, with all their copies. -/
def received (operations : List (Operation α)) : List (Place α) :=
  operations.flatMap (·.response.places)

/-- The markers that operations hand over. -/
def taken (view : MapView α) : List (Operation α) → List (Marker α)
  | [] => []
  | operation :: rest =>
    operation.taken view ++
      match operation.apply view with
      | .ok next => next.taken rest
      | .error _ => []

/-- Further operations hand over markers of the view that the operations before lead to. -/
theorem taken_append {operations : List (Operation α)} (hrun : view.run operations = .ok next)
    (further : List (Operation α)) :
    view.taken (operations ++ further) = view.taken operations ++ next.taken further := by
  induction operations generalizing view with
  | nil =>
    obtain rfl : view = next := Except.ok.inj hrun
    rfl
  | cons operation rest ih =>
    rw [List.cons_append, taken, taken, List.append_assoc]
    cases hafter : operation.apply view with
    | error fault =>
      unfold run at hrun
      rw [List.foldlM_cons, hafter] at hrun
      exact nomatch hrun
    | ok after =>
      rw [run_cons hafter] at hrun
      rw [← ih hrun]

/-- The languages that operations bring in the order in which they are met, given the places that
are known before. -/
def definitions (known : List PlaceId) : List (Operation α) → List Language
  | [] => []
  | operation :: rest =>
    operation.definitions known ++
      definitions (known ++ operation.response.places.map (·.id)) rest

omit [Legible α] in
theorem definitions_congr {known other : List PlaceId} (hsame : ∀ id, id ∈ known ↔ id ∈ other)
    (operations : List (Operation α)) :
    definitions known operations = definitions other operations := by
  induction operations generalizing known other with
  | nil => rfl
  | cons operation rest ih =>
    unfold definitions Operation.definitions
    rw [newcomers_congr hsame, ih fun id ↦ ?_]
    rw [List.mem_append, List.mem_append, hsame]

omit [Legible α] in
/-- A place that is new brings the language of its name. -/
theorem mem_definitions {known : List PlaceId} {operations : List (Operation α)} {place : Place α}
    (hplace : place ∈ newcomers known (received operations)) {language : Language}
    (hlanguage : place.language? = some language) : language ∈ definitions known operations := by
  induction operations generalizing known with
  | nil => simp [newcomers, received, firstCopies] at hplace
  | cons operation rest ih =>
    have hreceived : received (operation :: rest) = operation.response.places ++ received rest :=
      List.flatMap_cons
    rw [hreceived, newcomers_append, List.mem_append] at hplace
    rw [definitions, Operation.definitions]
    rcases hplace with hnew | hlater
    · exact List.mem_append_left _
        (List.mem_append_right _ (List.mem_filterMap.mpr ⟨place, hnew, hlanguage⟩))
    · have hrest := ih hlater
      rw [definitions_congr (mem_append_newcomers known _) rest] at hrest
      exact List.mem_append_right _ hrest

/-- The view after places have been received, markers taken and languages offered: it has the
places that it did not know as their first copies say, and of each language the definition that was
first; the markers taken are the first of those that it had and of those of the new places. -/
structure Advances (view : MapView α) (received : List (Place α)) (taken : List (Marker α))
    (offered : List Language) (next : MapView α) : Prop where
  sound : next.Sound
  places : next.places = view.places ++ newcomers view.order received
  markers : taken ++ next.markers = view.markers ++ (newcomers view.order received).map fun place ↦
    ⟨place.id, place.location, place.icon⟩
  languages : ∀ id, next.language? id = (view.language? id).or (offered.find? (·.id == id))
  icons : ∀ name icon, view.icon? name = some icon → next.icon? name = some icon

omit [Legible α] in
/-- Places, languages and icons are as before where nothing was received. -/
theorem Advances.of_eq {taken : List (Marker α)} (hsound : next.Sound)
    (hplaces : next.places = view.places) (hmarkers : taken ++ next.markers = view.markers)
    (hlanguages : next.languages = view.languages) (hicons : next.icons = view.icons) :
    view.Advances [] taken [] next where
  sound := hsound
  places := hplaces.trans (List.append_nil _).symm
  markers := hmarkers.trans (List.append_nil _).symm
  languages id := by
    unfold language?
    rw [hlanguages]
    exact Option.or_none.symm
  icons name icon hicon := by
    unfold icon? at hicon ⊢
    rwa [hicons]

omit [Legible α] in
theorem Advances.order {received : List (Place α)} {taken : List (Marker α)}
    {offered : List Language} (hview : view.Sound)
    (hnext : view.Advances received taken offered next) :
    next.order = view.order ++ (newcomers view.order received).map (·.id) := by
  rw [← hnext.sound.order, hnext.places, List.map_append, hview.order]

omit [Legible α] in
theorem Advances.trans {last : MapView α} {received more : List (Place α)}
    {taken further : List (Marker α)} {offered others : List Language} (hview : view.Sound)
    (hnext : view.Advances received taken offered next)
    (hlast : next.Advances more further others last) :
    view.Advances (received ++ more) (taken ++ further) (offered ++ others) last := by
  have hnewcomers := newcomers_append view.order received more
  rw [← hnext.order hview] at hnewcomers
  constructor
  case sound => exact hlast.sound
  case places => rw [hlast.places, hnext.places, hnewcomers, List.append_assoc]
  case markers =>
    rw [List.append_assoc, hlast.markers, ← List.append_assoc, hnext.markers, hnewcomers,
      List.map_append, List.append_assoc]
  case languages =>
    intro id
    rw [hlast.languages, hnext.languages, List.find?_append, Option.or_assoc]
  case icons => exact fun name icon hicon ↦ hlast.icons name icon (hnext.icons name icon hicon)

/-- Every operation can be applied to a sound view. -/
theorem apply_advances (hview : view.Sound) (operation : Operation α) :
    ∃ next, operation.apply view = .ok next ∧
      view.Advances operation.response.places (operation.taken view)
        (operation.definitions view.order) next := by
  cases operation with
  | ingest response =>
    obtain ⟨next, hnext, hgrows⟩ := ingest_spec hview response
    exact ⟨next, by rw [Operation.apply, hnext]; rfl, hgrows.sound, hgrows.places, hgrows.markers,
      hgrows.languages, hgrows.icons⟩
  | toggle part row => exact ⟨_, rfl, .of_eq (sound_toggle hview part row) rfl rfl rfl rfl⟩
  | takeMarkers =>
    exact ⟨_, rfl, .of_eq (hview.congr rfl rfl rfl rfl) rfl (List.append_nil _) rfl rfl⟩
  | _ => exact ⟨_, rfl, .of_eq (hview.congr rfl rfl rfl rfl) rfl rfl rfl rfl⟩

/-- No run from a sound view is ended, and what it adds is what its operations add. -/
theorem run_advances (hview : view.Sound) (operations : List (Operation α)) :
    ∃ last, view.run operations = .ok last ∧
      view.Advances (received operations) (view.taken operations)
        (definitions view.order operations) last := by
  induction operations generalizing view with
  | nil => exact ⟨view, rfl, .of_eq hview rfl rfl rfl rfl⟩
  | cons operation rest ih =>
    obtain ⟨next, hnext, hadvances⟩ := apply_advances hview operation
    obtain ⟨last, hlast, hadvancesLast⟩ := ih hadvances.sound
    have hdefinitions : definitions view.order (operation :: rest) =
        operation.definitions view.order ++ definitions next.order rest := by
      rw [definitions, hadvances.order hview]
      congr 1
      exact definitions_congr (fun id ↦ (mem_append_newcomers _ _ id).symm) rest
    refine ⟨last, (run_cons hnext rest).trans hlast, ?_⟩
    rw [hdefinitions, taken, hnext]
    exact hadvances.trans hview hadvancesLast

/-- The language of a place that a view has come to know is known to it. -/
theorem isSome_language?_of_mem {options : MapOptions α} {operations : List (Operation α)}
    (hview : (new options).Advances (received operations) ((new options).taken operations)
      (definitions [] operations) view) {place : Place α} (hplace : place ∈ view.places)
    {language : Language} (hlanguage : place.language? = some language) :
    (view.language? language.id).isSome := by
  have hmem : language ∈ definitions [] operations := by
    refine mem_definitions ?_ hlanguage
    rwa [hview.places] at hplace
  rw [hview.languages, Option.isSome_or, Bool.or_eq_true, List.find?_isSome]
  exact Or.inr ⟨language, hmem, beq_self_eq_true _⟩

theorem Reachable.sound (hview : view.Reachable) : view.Sound := by
  obtain ⟨options, operations, hrun⟩ := hview
  obtain ⟨last, hlast, hadvances⟩ := run_advances (sound_new options) operations
  obtain rfl : view = last := Except.ok.inj (hrun.symm.trans hlast)
  exact hadvances.sound

end LabelledMap.MapView
