import LabelledMap.Proofs.View.Runs
import Mathlib.Data.List.Induction

/-!
# Late answers

Answers to requests for details come late, in any order, more than once, or for places that nobody
has asked for, and the panel keeps nothing but what it shows. So what it shows is told here by the
whole run: the place chosen last (`MapView.chosen?`), and the last answer for that place that has
come since (`MapView.latestAnswer?`). `MapView.ShowsLatest` says that a panel shows just that, and
every operation keeps it so (`MapView.ShowsLatest.apply`): an answer for another place than the
chosen one is dropped, and an answer that came before the place was chosen is not shown again.
-/

set_option autoImplicit false

namespace LabelledMap.MapView

variable {α : Type} [Legible α]

omit [Legible α] in
/-- The place that the operation chooses, or none where it closes the panel; other operations choose
nothing. -/
def Operation.choice? : Operation α → Option (Option PlaceId)
  | openDetail id => some id
  | clickMap => some none
  | _ => none

omit [Legible α] in
/-- What is to be shown of the operation, if it is an answer for a place. -/
def Operation.answer? (id : PlaceId) : Operation α → Option String
  | receiveDetail other html => if other = id then some html else none
  | failDetail other message =>
    if other = id then some ("Error retrieving info: " ++ message) else none
  | _ => none

/-- The place chosen last, unless the panel was closed after it. -/
def chosen? (operations : List (Operation α)) : Option PlaceId :=
  (operations.reverse.findSome? (·.choice?)).join

/-- The last answer for a place among the operations after the last choice. -/
def latestAnswer? (operations : List (Operation α)) (id : PlaceId) : Option String :=
  (operations.reverse.takeWhile (·.choice?.isNone)).findSome? (·.answer? id)

omit [Legible α] in
theorem chosen?_concat (operations : List (Operation α)) (operation : Operation α) :
    chosen? (operations ++ [operation]) = operation.choice?.getD (chosen? operations) := by
  unfold chosen?
  rw [List.reverse_concat, List.findSome?_cons]
  cases operation.choice? <;> rfl

omit [Legible α] in
theorem latestAnswer?_concat (operations : List (Operation α)) (operation : Operation α)
    (id : PlaceId) :
    latestAnswer? (operations ++ [operation]) id =
      if operation.choice?.isNone then (operation.answer? id).or (latestAnswer? operations id)
      else none := by
  unfold latestAnswer?
  rw [List.reverse_concat, List.takeWhile_cons]
  split_ifs with hchoice
  · rw [List.findSome?_cons]
    cases operation.answer? id <;> rfl
  · rfl

/-- A panel shows what operations ask for: the place chosen last, with the last answer for it that
has come since, or the text of loading where none has come. -/
structure ShowsLatest (operations : List (Operation α)) (panel : DetailPanel) : Prop where
  current : panel.current? = chosen? operations
  content : panel.content? =
    (chosen? operations).map fun id ↦ (latestAnswer? operations id).getD loadingText

section Panels

variable {operations : List (Operation α)} {panel : DetailPanel}

omit [Legible α] in
/-- An answer is wanted if it is for the place chosen last. -/
theorem ShowsLatest.accepts_iff (hpanel : ShowsLatest operations panel) (id : PlaceId) :
    panel.accepts id = true ↔ chosen? operations = some id := by
  unfold DetailPanel.accepts
  rw [hpanel.current, beq_iff_eq]

omit [Legible α] in
/-- What is neither a choice nor an answer for the place chosen last leaves the panel. -/
theorem ShowsLatest.keep (hpanel : ShowsLatest operations panel) {operation : Operation α}
    (hchoice : operation.choice? = none)
    (hanswer : ∀ id, chosen? operations = some id → operation.answer? id = none) :
    ShowsLatest (operations ++ [operation]) panel := by
  have hchosen : chosen? (operations ++ [operation]) = chosen? operations := by
    rw [chosen?_concat, hchoice, Option.getD_none]
  refine ⟨hpanel.current.trans hchosen.symm, ?_⟩
  rw [hpanel.content, hchosen]
  refine Option.map_congr fun id hid ↦ ?_
  rw [latestAnswer?_concat, hchoice, hanswer id hid]
  rfl

omit [Legible α] in
/-- A choice opens or closes the panel, whatever has been answered before. -/
theorem showsLatest_choose (operations : List (Operation α)) {operation : Operation α}
    {choice : Option PlaceId} (hchoice : operation.choice? = some choice) :
    ShowsLatest (operations ++ [operation]) (.open? choice) := by
  have hchosen : chosen? (operations ++ [operation]) = choice := by
    rw [chosen?_concat, hchoice, Option.getD_some]
  have hanswer : ∀ id, latestAnswer? (operations ++ [operation]) id = none := by
    intro id
    rw [latestAnswer?_concat, hchoice]
    rfl
  constructor
  · rw [hchosen]
    cases choice <;> rfl
  · rw [hchosen]
    simp only [hanswer]
    cases choice <;> rfl

omit [Legible α] in
/-- An answer is shown from then on if it is for the place chosen last, and is dropped otherwise. -/
theorem ShowsLatest.answer (hpanel : ShowsLatest operations panel) {operation : Operation α}
    {id : PlaceId} {text : String} {shown : DetailPanel} (hchoice : operation.choice? = none)
    (hanswer : ∀ other, operation.answer? other = if id = other then some text else none)
    (hcurrent : shown.current? = some id) (hcontent : shown.content? = some text) :
    ShowsLatest (operations ++ [operation])
      (if panel.accepts id then (true, shown) else (false, panel)).2 := by
  split_ifs with hwanted
  · have hchosen : chosen? (operations ++ [operation]) = some id := by
      rw [chosen?_concat, hchoice, Option.getD_none]
      exact (hpanel.accepts_iff id).mp hwanted
    refine ⟨hcurrent.trans hchosen.symm, ?_⟩
    rw [hchosen, hcontent, Option.map_some, latestAnswer?_concat, hchoice, hanswer, if_pos rfl]
    rfl
  · refine hpanel.keep hchoice fun other hother ↦ (hanswer other).trans (if_neg ?_)
    rintro rfl
    exact hwanted ((hpanel.accepts_iff id).mpr hother)

end Panels

/-- Every operation keeps the panel of a sound view up to date. -/
theorem ShowsLatest.apply {view next : MapView α} {operations : List (Operation α)}
    (hview : view.Sound) (hpanel : ShowsLatest operations view.detail) (operation : Operation α)
    (hnext : operation.apply view = .ok next) :
    ShowsLatest (operations ++ [operation]) next.detail := by
  cases operation with
  | openDetail id =>
    obtain rfl := Except.ok.inj hnext
    exact showsLatest_choose operations rfl
  | clickMap =>
    obtain rfl := Except.ok.inj hnext
    have hchoice : (Operation.clickMap : Operation α).choice? = some none := rfl
    exact showsLatest_choose operations hchoice
  | receiveDetail | failDetail =>
    obtain rfl := Except.ok.inj hnext
    exact hpanel.answer rfl (fun _ ↦ rfl) rfl rfl
  | ingest response =>
    obtain ⟨later, hlater, hgrows⟩ := ingest_spec hview response
    rw [Operation.apply, hlater] at hnext
    obtain rfl := Except.ok.inj hnext
    rw [hgrows.detail]
    exact hpanel.keep rfl fun _ _ ↦ rfl
  | assignOptions | request | requestFailed | takeMarkers | toggle =>
    obtain rfl := Except.ok.inj hnext
    exact hpanel.keep rfl fun _ _ ↦ rfl

/-- No run is ended, and the panel shows what the run asks for. -/
theorem run_showsLatest (options : MapOptions α) (operations : List (Operation α)) :
    ∃ view, (new options).run operations = .ok view ∧ view.Sound ∧
      ShowsLatest operations view.detail := by
  induction operations using List.reverseRecOn with
  | nil => exact ⟨new options, rfl, sound_new options, rfl, rfl⟩
  | append_singleton operations operation ih =>
    obtain ⟨view, hrun, hview, hpanel⟩ := ih
    obtain ⟨next, hnext, hadvances⟩ := apply_advances hview operation
    refine ⟨next, ?_, hadvances.sound, hpanel.apply hview operation hnext⟩
    unfold run at hrun ⊢
    rw [List.foldlM_append, hrun]
    change [operation].foldlM Operation.apply view = _
    rw [List.foldlM_cons, hnext]
    rfl

omit [Legible α] in
/-- An answer that is not wanted leaves the view as it is. -/
theorem answered_eq (view : MapView α) (id : PlaceId) (text : String) :
    (view.receiveDetail id text).1 = view.detail.accepts id ∧
      (view.failDetail id text).1 = view.detail.accepts id ∧
      (view.detail.accepts id = false →
        (view.receiveDetail id text).2 = view ∧ (view.failDetail id text).2 = view) := by
  unfold receiveDetail failDetail DetailPanel.receive DetailPanel.fail
  cases view.detail.accepts id with
  | true => exact ⟨rfl, rfl, nofun⟩
  | false => exact ⟨rfl, rfl, fun _ ↦ ⟨rfl, rfl⟩⟩

/-- What the detail panel shows after any run, none of which is ended: choices, answers and whatever
else is done to the view may come in any order, answers also late, repeated or for places that were
never chosen. The panel is open for the place chosen last and is closed if it was closed after that
or if none was chosen. It shows the last answer for that place since it was chosen last, and the
text of loading until there is one. A further answer is taken if it is for the place chosen last,
and any other leaves the view as it is. -/
theorem latest_answer_shown (options : MapOptions α) (operations : List (Operation α)) :
    ∃ view, (new options).run operations = .ok view ∧
      view.detail.current? = chosen? operations ∧
      view.detail.content? = (chosen? operations).map
        (fun id ↦ (latestAnswer? operations id).getD loadingText) ∧
      ∀ id text,
        ((view.receiveDetail id text).1 = true ↔ chosen? operations = some id) ∧
        ((view.failDetail id text).1 = true ↔ chosen? operations = some id) ∧
        (chosen? operations ≠ some id →
          (view.receiveDetail id text).2 = view ∧ (view.failDetail id text).2 = view) := by
  obtain ⟨view, hrun, -, hpanel⟩ := run_showsLatest options operations
  refine ⟨view, hrun, hpanel.current, hpanel.content, fun id text ↦ ?_⟩
  obtain ⟨hreceived, hfailed, hdropped⟩ := view.answered_eq id text
  have haccepts := hpanel.accepts_iff id
  refine ⟨by rw [hreceived, haccepts], by rw [hfailed, haccepts], fun hother ↦ hdropped ?_⟩
  exact Bool.eq_false_iff.mpr (mt haccepts.mp hother)

end LabelledMap.MapView
