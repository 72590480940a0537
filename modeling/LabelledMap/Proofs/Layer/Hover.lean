import LabelledMap.Proofs.Layer.Runs
import Mathlib.Data.List.TFAE
import Mathlib.Tactic.TFAE

/-!
# What the host hears of hovering

A layer tells the host what its renderer tells, once the element's class has been changed for the
new cursor. If the browser refuses the change, the host is told nothing; but the renderer has taken
note of the hovered feature by then. So three parties can disagree on what is hovered: the renderer,
the element and the host. `HeardStep` lists what one operation does to the three of them: it is
answered, and all of them go along, or the change is refused, and only the renderer does
(`Layer.heardStep_next`). The element and the host hence always agree (`Layer.cursor_run`).

`Layer.heard_balanced_tfae` says when the renderer does: as long as no change is refused, what the
host hears is in balance and the element's class shows whether a feature is hovered. A refused
change breaks this every time, and for good reason: as soon as the pointer leaves, the host hears of
a feature left that it does not know of, or the class stays though nothing is hovered.
-/

set_option autoImplicit false

namespace LabelledMap

variable {α : Type}

/-! ### The host's account -/

/-- What the host hears when features are entered and left one after the other. -/
def visitActions (visits : List FeatureId) : List Action :=
  visits.flatMap fun id ↦ [.entered id, .left id]

/-- Entering and leaving take turns, beginning with entering, and each feature that is left is the
one that was entered before. -/
def HostBalanced (heard : List Action) : Prop :=
  ∃ visits current, heard.filter Action.crosses =
    visitActions visits ++ (current : Option FeatureId).toList.map .entered

theorem HoverBalance.hostBalanced {heard : List Action} {hovered : Option FeatureId}
    (hbalance : HoverBalance heard hovered) : HostBalanced heard := by
  obtain ⟨visits, hvisits⟩ := hbalance.visits
  exact ⟨visits, hovered, hvisits⟩

/-- In an account of turns, only the feature entered last can be left next. -/
theorem eq_some_of_visitActions_left {visits turns : List FeatureId}
    {last current : Option FeatureId} {id : FeatureId}
    (heq : visitActions visits ++ last.toList.map .entered ++ [.left id] =
      visitActions turns ++ current.toList.map .entered) : last = some id := by
  -- The two accounts run along each other, one visit at a time.
  induction visits generalizing turns with
  | nil =>
    cases turns with
    | nil => cases last <;> cases current <;> simp [visitActions] at heq
    | cons turn turns =>
      cases last with
      | none => simp [visitActions] at heq
      | some entered =>
        simp only [visitActions, List.flatMap_nil, List.flatMap_cons, List.nil_append,
          List.cons_append, Option.toList_some, List.map_cons, List.map_nil, List.cons.injEq,
          Action.entered.injEq, Action.left.injEq] at heq
        obtain ⟨rfl, rfl, -⟩ := heq
        rfl
  | cons visit visits ih =>
    cases turns with
    | nil => cases last <;> cases current <;> simp [visitActions] at heq
    | cons turn turns =>
      simp only [visitActions, List.flatMap_cons, List.cons_append, List.nil_append,
        List.cons.injEq] at heq
      exact ih heq.2.2

/-- If the host knows which feature is hovered and hears that another one is left, the account is
out of balance. -/
theorem HoverBalance.eq_of_hostBalanced_left {heard more : List Action}
    {hovered : Option FeatureId} {id : FeatureId} (hbalance : HoverBalance heard hovered)
    (hmore : more.filter Action.crosses = [.left id]) (hhost : HostBalanced (heard ++ more)) :
    hovered = some id := by
  obtain ⟨visits, hvisits⟩ := hbalance.visits
  obtain ⟨turns, current, hturns⟩ := hhost
  rw [List.filter_append, hvisits, hmore] at hturns
  exact eq_some_of_visitActions_left hturns

/-! ### The element's class -/

/-- The cursor that the element's class asks for. -/
def Element.cursor (element : Element α) : Cursor :=
  if .interactive ∈ element.classes then .interactive else .normal

theorem Element.cursor_eq_interactive_iff {element : Element α} :
    element.cursor = .interactive ↔ .interactive ∈ element.classes := by
  unfold cursor
  split_ifs with hmem
  · exact ⟨fun _ ↦ hmem, fun _ ↦ rfl⟩
  · exact ⟨fun heq ↦ (nomatch heq), fun hin ↦ absurd hin hmem⟩

/-- Whether a call changes the class for the pointer. -/
def BrowserCall.changesCursor : BrowserCall α → Bool
  | addClass .interactive | removeClass .interactive => true
  | _ => false

section Cursor

variable [Scalar α]

theorem Element.cursor_after {call : BrowserCall α} (hcall : call.changesCursor = false)
    (element : Element α) : (element.after call).cursor = element.cursor := by
  cases call with
  | addClass name =>
    cases name with
    | interactive => cases hcall
    | zoomAnimated => simp [Element.after, Element.cursor]
  | removeClass name =>
    cases name with
    | interactive => cases hcall
    | zoomAnimated => simp [Element.after, Element.cursor]
  | style rule => cases rule <;> rfl
  | draw call => cases call <;> rfl
  | getContext | deviceWidth | deviceHeight => rfl

/-- The calls for actions bring the class where the actions bring the cursor. -/
theorem Element.cursor_foldl_cursorCalls (actions : List Action) (element : Element α) :
    ((actions.filterMap Layer.cursorCall?).foldl Element.after element).cursor =
      actions.foldl Cursor.after element.cursor := by
  induction actions generalizing element with
  | nil => rfl
  | cons action rest ih =>
    cases action with
    | cursor next =>
      cases next with
      | interactive =>
        have hinteractive : (element.after (.addClass .interactive)).cursor = .interactive := by
          simp [Element.after, Element.cursor]
        exact (ih (element.after (.addClass .interactive))).trans (by rw [hinteractive]; rfl)
      | normal =>
        have hnormal : (element.after (.removeClass .interactive)).cursor = .normal := by
          simp [Element.after, Element.cursor]
        exact (ih (element.after (.removeClass .interactive))).trans (by rw [hnormal]; rfl)
    | entered | left | clicked => exact ih element

end Cursor

/-! ### One operation -/

/-- What one operation does when the hovered feature changes, or does not, while the element shows a
cursor: whether it is answered, what the host hears of it, the feature hovered then and the cursor
shown then. -/
inductive HeardStep (previous : Option FeatureId) (shown : Cursor) :
    Bool → List Action → Option FeatureId → Cursor → Prop
  | answered {actions : List Action} {next : Option FeatureId}
    (hstep : HoverStep previous actions next) :
    HeardStep previous shown true actions next (actions.foldl Cursor.after shown)
  /-- The change of the class is refused: only the hovered feature changes. -/
  | refused {next : Option FeatureId} (hne : next ≠ previous) :
    HeardStep previous shown false [] next shown

namespace HeardStep

variable {previous next : Option FeatureId} {before shown : Cursor} {answered : Bool}
  {heard : List Action}

/-- The element shows the cursor that the host has heard of last. -/
theorem cursor_eq (hstep : HeardStep previous before answered heard next shown) :
    shown = heard.foldl Cursor.after before := by
  cases hstep with
  | answered hstep => rfl
  | refused hne => rfl

theorem hoverStep (hstep : HeardStep previous before answered heard next shown)
    (hanswered : answered = true) : HoverStep previous heard next := by
  cases hstep with
  | answered hstep => exact hstep
  | refused hne => cases hanswered

theorem of_refused (hstep : HeardStep previous before answered heard next shown)
    (hrefused : answered = false) : heard = [] ∧ next ≠ previous := by
  cases hstep with
  | answered hstep => cases hrefused
  | refused hne => exact ⟨rfl, hne⟩

end HeardStep

/-- An actual change asks for one change of the class. -/
theorem HoverStep.cursorCalls {previous next : Option FeatureId} {actions : List Action}
    (hstep : HoverStep previous actions next) :
    (actions.filterMap (Layer.cursorCall? (α := α)) = []) ∨
      next ≠ previous ∧ ∃ call, actions.filterMap (Layer.cursorCall? (α := α)) = [call] := by
  cases hstep with
  | stay => exact Or.inl rfl
  | enter id => exact Or.inr ⟨Option.some_ne_none id, _, rfl⟩
  | leave id => exact Or.inr ⟨(Option.some_ne_none id).symm, _, rfl⟩
  | change hne => exact Or.inr ⟨fun heq ↦ hne (Option.some.inj heq), _, rfl⟩

namespace Layer

section Steps

variable [Scalar α] {layer : Layer α} {browser : Browser α}

/-- The report of an operation that tells actions after it has changed the class for them. -/
theorem heardStep_performing (browser : Browser α) {previous : Option FeatureId}
    {actions : List Action}
    (hstep : HoverStep previous actions layer.renderer.hovered) (element : Element α) :
    let report := layer.performing browser (actions.filterMap cursorCall?) actions
    HeardStep previous element.cursor report.result.isOk report.heard
      report.layer.renderer.hovered (browser.elementAfter element report.calls).cursor := by
  intro report
  cases hperformed : (browser.perform (actions.filterMap cursorCall?)).2 with
  | none =>
    have hreport : report = ⟨actions.filterMap cursorCall?, .ok actions, layer⟩ :=
      performing_of_accepted hperformed actions
    rw [hreport, Browser.elementAfter_of_perform hperformed, Element.cursor_foldl_cursorCalls]
    exact .answered hstep
  | some refusal =>
    have hreport : report = ⟨(browser.perform (actions.filterMap cursorCall?)).1,
        .error (.refused refusal), layer⟩ := performing_of_refused hperformed actions
    rcases hstep.cursorCalls (α := α) with hnone | ⟨hne, call, hcall⟩
    · rw [hnone] at hperformed
      cases hperformed
    · have hmade : (browser.perform [call]).1 = [call] := by
        unfold Browser.perform Refusals.attempt
        split
        · rfl
        · rfl
      have hshown : browser.elementAfter element report.calls = element := by
        rw [hreport, Browser.elementAfter_of_refused hperformed, hcall, hmade]
        rfl
      rw [hshown, hreport]
      exact .refused hne

/-- A pass leaves the hovered feature. -/
theorem hovered_drawPass (frame : Frame α) (features : List (Feature α)) :
    (layer.drawPass browser frame features).layer.renderer.hovered = layer.renderer.hovered := by
  obtain ⟨placed, targets, counts, hkept⟩ := layer.drawPass_keeps browser frame features
  rw [hkept]
  rfl

end Steps

theorem heard_silent {answer : Type} (report : LayerReport α answer) :
    report.silent.heard = [] := by
  unfold LayerReport.silent LayerReport.heard
  cases report.result with
  | error fault => rfl
  | ok value => rfl

/-! ### Agreement -/

/-- The host and the element agree with the renderer on what is hovered. -/
structure InStep (history : History α) (shown : Element α) : Prop where
  balance : HoverBalance history.heard history.layer.renderer.hovered
  interactive :
    .interactive ∈ shown.classes ↔ history.layer.renderer.hovered.isSome = true

/-- The host is not misled when the pointer leaves, on any page that allows the change of class for
it: what it hears is in balance, and the element shows whether a feature is hovered. -/
def LeavesInStep [Scalar α] (history : History α) (shown : Element α) : Prop :=
  ∀ page : Browser α,
    let left := history.layer.losePointer page
    left.result.isOk = true → HostBalanced (history.heard ++ left.heard) ∧
      (.interactive ∈ (page.elementAfter shown left.calls).classes ↔
        left.layer.renderer.hovered.isSome = true)

section Agreement

variable {history : History α} {shown : Element α}

/-- Where the account is in balance, the element agrees if it shows the cursor of the account. -/
theorem inStep_iff : InStep history shown ↔
    HoverBalance history.heard history.layer.renderer.hovered ∧
      shown.cursor = history.heard.foldl Cursor.after .normal := by
  have hclass : HoverBalance history.heard history.layer.renderer.hovered →
      (shown.cursor = history.heard.foldl Cursor.after .normal ↔
        (.interactive ∈ shown.classes ↔ history.layer.renderer.hovered.isSome = true)) := by
    intro hbalance
    rw [hbalance.cursor]
    unfold Element.cursor
    split_ifs <;> simp_all
  exact ⟨fun hagree ↦ ⟨hagree.balance, (hclass hagree.balance).mpr hagree.interactive⟩,
    fun h ↦ ⟨h.1, (hclass h.1).mp h.2⟩⟩

/-- Parties that agree go along with a change that is answered. -/
theorem InStep.append (hagree : InStep history shown) {more : List Action} {next : Layer α}
    {after : Element α}
    (hstep : HeardStep history.layer.renderer.hovered shown.cursor true more
      next.renderer.hovered after.cursor) (calls : List (BrowserCall α)) :
    InStep ⟨calls, history.heard ++ more, next⟩ after := by
  obtain ⟨hbalance, hcursor⟩ := inStep_iff.mp hagree
  refine inStep_iff.mpr ⟨hbalance.append (hstep.hoverStep rfl), ?_⟩
  rw [hstep.cursor_eq, hcursor, List.foldl_append]

/-- A page that refuses nothing lets the pointer leave. -/
theorem isOk_losePointer (layer : Layer α) {page : Browser α}
    (hallows : ∀ earlier call, page.refuses earlier call = none) :
    (layer.losePointer page).result.isOk = true := by
  have hleft : layer.losePointer page = performing ⟨layer.renderer.losePointer.2⟩ page
      (layer.renderer.losePointer.1.filterMap cursorCall?) layer.renderer.losePointer.1 := rfl
  rw [hleft, performing_of_accepted (congrArg Prod.snd (Browser.perform_of_allows hallows _))]
  rfl

theorem hovered_losePointer (layer : Layer α) (page : Browser α) :
    (layer.losePointer page).layer.renderer.hovered = none := by
  have hleft : layer.losePointer page = performing ⟨layer.renderer.losePointer.2⟩ page
      (layer.renderer.losePointer.1.filterMap cursorCall?) layer.renderer.losePointer.1 := rfl
  rw [hleft, (performing_keeps _ _ _ _).2]
  rfl

variable [Scalar α]

/-- What becomes of the three parties when the pointer leaves and the page allows it. -/
theorem heardStep_losePointer {layer : Layer α} {page : Browser α}
    (hok : (layer.losePointer page).result.isOk = true) (shown : Element α) :
    HeardStep layer.renderer.hovered shown.cursor true (layer.losePointer page).heard
      (layer.losePointer page).layer.renderer.hovered
      (page.elementAfter shown (layer.losePointer page).calls).cursor :=
  hok ▸ heardStep_performing page (Renderer.Operation.losePointer.told_step layer.renderer) shown

theorem InStep.leavesInStep (hagree : InStep history shown) : LeavesInStep history shown := by
  intro page left hok
  have hleft := hagree.append (heardStep_losePointer hok shown) []
  exact ⟨hleft.balance.hostBalanced, hleft.interactive⟩

/-- A host that is not misled when the pointer leaves has known which feature was hovered. -/
theorem LeavesInStep.hovered_eq (hleaves : LeavesInStep history shown) {known : Option FeatureId}
    (hknown : HoverBalance history.heard known)
    (hcursor : shown.cursor = history.heard.foldl Cursor.after .normal)
    (page : Browser α) (hallows : ∀ earlier call, page.refuses earlier call = none) :
    history.layer.renderer.hovered = known := by
  have hok := isOk_losePointer history.layer hallows
  obtain ⟨hhost, hclass⟩ := hleaves page hok
  have hstep := heardStep_losePointer hok shown
  have htold := hstep.hoverStep rfl
  rw [← Element.cursor_eq_interactive_iff, hstep.cursor_eq, hcursor, hknown.cursor] at hclass
  rw [hovered_losePointer] at htold hclass
  generalize (history.layer.losePointer page).heard = more at htold hhost hclass
  generalize history.layer.renderer.hovered = hovered at htold ⊢
  -- The pointer leaves the hovered feature, or there is none and nothing is told.
  cases htold with
  | stay =>
    cases known with
    | none => rfl
    | some id => exact absurd (hclass.mp rfl) Bool.false_ne_true
  | leave id => exact (hknown.eq_of_hostBalanced_left rfl hhost).symm

end Agreement

/-! ### One operation -/

section Operations

variable [Analytic α]

/-- Whether an operation of the pointer is answered. Other operations are in any case. -/
def History.answers (history : History α) (browser : Browser α) (operation : Operation α) : Bool :=
  !operation.isPointer || (history.report browser operation).result.isOk

/-- An operation that does not tell of the pointer leaves the class for it. -/
theorem Operation.changesCursor_of_makes {layer : Layer α} {operation : Operation α}
    (hother : operation.isPointer = false) {call : BrowserCall α}
    (hmakes : operation.Makes layer call) : call.changesCursor = false := by
  cases operation with
  | init =>
    unfold Makes elementSetup at hmakes
    simp only [List.mem_cons, List.not_mem_nil, or_false] at hmakes
    rcases hmakes with rfl | rfl | rfl | rfl <;> rfl
  | follow center zoom =>
    obtain ⟨placement, rfl⟩ := hmakes
    rfl
  | drawPass frame features =>
    rcases hmakes with hlaid | ⟨drawing, rfl⟩
    · simp only [layoutCalls, List.mem_cons, List.not_mem_nil, or_false] at hlaid
      rcases hlaid with rfl | rfl | rfl | rfl | rfl | rfl | rfl <;> rfl
    · rfl
  | setDevicePixelRatio | setBusy | setOptions | assignOptions => exact hmakes.elim
  | movePointerAt | movePointer | losePointer => cases hother

/-- An operation that does not tell of the pointer leaves the hovered feature. -/
theorem Operation.perform_of_not_isPointer (layer : Layer α) (browser : Browser α)
    {operation : Operation α} (hother : operation.isPointer = false) :
    let report := operation.perform layer browser
    report.heard = [] ∧ report.layer.renderer.hovered = layer.renderer.hovered := by
  intro report
  cases operation with
  | init =>
    have hkept := (layer.performing_keeps browser (elementSetup layer.renderer.options) ()).2
    exact ⟨heard_silent _, congrArg (fun kept ↦ kept.renderer.hovered) hkept⟩
  | follow center zoom =>
    refine ⟨heard_silent _, ?_⟩
    change (layer.follow browser center zoom).layer.renderer.hovered = _
    unfold Layer.follow
    cases layer.renderer.placement? center zoom with
    | none => rfl
    | some placement =>
      have hkept := (layer.performing_keeps browser [.style (.transform placement)]
        (some placement)).2
      exact congrArg (fun kept ↦ kept.renderer.hovered) hkept
  | drawPass frame features => exact ⟨heard_silent _, hovered_drawPass frame features⟩
  | setOptions options =>
    obtain ⟨kept, hkept⟩ := Renderer.apply_setOptions layer.renderer options
    refine ⟨rfl, ?_⟩
    change ((Renderer.Operation.setOptions options).apply layer.renderer).hovered = _
    rw [hkept]
  | setDevicePixelRatio | setBusy | assignOptions => exact ⟨rfl, rfl⟩
  | movePointerAt | movePointer | losePointer => cases hother

/-- One more operation is a step of the three parties. -/
theorem heardStep_next (history : History α) (browser : Browser α) (element : Element α)
    (operation : Operation α) :
    let shown := browser.elementAfter element history.calls
    let next := history.next browser operation
    ∃ more, next.heard = history.heard ++ more ∧
      HeardStep history.layer.renderer.hovered shown.cursor (history.answers browser operation)
        more next.layer.renderer.hovered (browser.elementAfter element next.calls).cursor := by
  intro shown next
  refine ⟨(history.report browser operation).heard, rfl, ?_⟩
  have hshown : browser.elementAfter element next.calls = (browser.after history.calls).elementAfter
      shown (history.report browser operation).calls := browser.elementAfter_append element _ _
  rw [hshown]
  cases hpointer : operation.isPointer with
  | false =>
    obtain ⟨hheard, hhovered⟩ :=
      Operation.perform_of_not_isPointer history.layer (browser.after history.calls) hpointer
    change HeardStep _ _ _ _ (history.report browser operation).layer.renderer.hovered _
    unfold History.answers History.report at *
    rw [hpointer, hheard, hhovered, Browser.elementAfter_keeps Element.cursor
      fun call hcall ↦ Element.cursor_after
        (Operation.changesCursor_of_makes hpointer (Operation.makes_of_mem_calls hcall))]
    exact .answered (.stay _)
  | true =>
    unfold History.answers
    rw [hpointer]
    cases operation with
    | movePointerAt point now =>
      exact heardStep_performing _
        ((Renderer.Operation.movePointer point now).told_step history.layer.renderer) shown
    | movePointer point window date =>
      let clocked : Browser α := { browser.after history.calls with window, date }
      exact heardStep_performing clocked
        ((Renderer.Operation.movePointer point clocked.now).told_step history.layer.renderer) shown
    | losePointer =>
      exact heardStep_performing _
        (Renderer.Operation.losePointer.told_step history.layer.renderer) shown
    | init | follow | drawPass | setDevicePixelRatio | setBusy | setOptions | assignOptions =>
      cases hpointer

/-! ### Runs -/

variable {layer : Layer α} {browser : Browser α} {element : Element α} {history : History α}
  {operations : List (Operation α)}

/-- Whether all operations of the pointer in a run are answered. -/
def Answered (layer : Layer α) (browser : Browser α) (operations : List (Operation α)) : Prop :=
  ∀ earlier operation later, operations = earlier ++ operation :: later →
    (layer.run browser earlier).answers browser operation = true

theorem answered_nil (layer : Layer α) (browser : Browser α) : layer.Answered browser [] :=
  fun _ _ _ hsplit ↦
    absurd hsplit.symm (List.append_ne_nil_of_right_ne_nil _ (List.cons_ne_nil _ _))

/-- The operations of a run are answered just if those before the last one are, and the last one is.
-/
theorem answered_concat_iff {last : Operation α} :
    layer.Answered browser (operations ++ [last]) ↔
      layer.Answered browser operations ∧
        (layer.run browser operations).answers browser last = true := by
  constructor
  · intro hanswered
    refine ⟨fun earlier operation later hsplit ↦ ?_, hanswered operations last [] rfl⟩
    exact hanswered earlier operation (later ++ [last]) (by simp [hsplit])
  · rintro ⟨hanswered, hlast⟩ earlier operation later hsplit
    rcases List.eq_nil_or_concat later with rfl | ⟨between, final, rfl⟩
    · obtain ⟨rfl, hsingle⟩ := List.append_inj' hsplit rfl
      obtain rfl := (List.cons.inj hsingle).1
      exact hlast
    · rw [List.concat_eq_append, ← List.cons_append, ← List.append_assoc] at hsplit
      exact hanswered earlier operation between (List.append_inj' hsplit rfl).1

/-- The element's class always shows the cursor that the host has heard of last. -/
theorem cursor_run (layer : Layer α) (browser : Browser α) (element : Element α)
    (operations : List (Operation α)) :
    (browser.elementAfter element (layer.run browser operations).calls).cursor =
      (layer.run browser operations).heard.foldl Cursor.after element.cursor := by
  induction operations using List.reverseRecOn with
  | nil => rfl
  | append_singleton operations last ih =>
    rw [run_concat]
    obtain ⟨more, hheard, hstep⟩ :=
      heardStep_next (layer.run browser operations) browser element last
    rw [hstep.cursor_eq, hheard, List.foldl_append, ih]

/-- Parties that agree go along with an operation that is answered. -/
theorem InStep.next (hagree : InStep history (browser.elementAfter element history.calls))
    {operation : Operation α} (hanswered : history.answers browser operation = true) :
    InStep (history.next browser operation)
      (browser.elementAfter element (history.next browser operation).calls) := by
  obtain ⟨more, hheard, hstep⟩ := heardStep_next history browser element operation
  rw [hanswered] at hstep
  have hnext := hagree.append hstep (history.next browser operation).calls
  rwa [← hheard] at hnext

/-- The three parties agree as long as all operations of the pointer are answered. -/
theorem inStep_run (hhovered : layer.renderer.hovered = none) (hcursor : element.cursor = .normal)
    (hanswered : layer.Answered browser operations) :
    InStep (layer.run browser operations)
      (browser.elementAfter element (layer.run browser operations).calls) := by
  induction operations using List.reverseRecOn with
  | nil =>
    refine inStep_iff.mpr ⟨?_, hcursor⟩
    change HoverBalance [] layer.renderer.hovered
    rw [hhovered]
    exact hoverBalance_nil
  | append_singleton operations last ih =>
    obtain ⟨hbefore, hlast⟩ := answered_concat_iff.mp hanswered
    rw [run_concat]
    exact (ih hbefore).next hlast

/-- When the host is never misled about the hovered feature. Assumes: at first nothing is hovered,
and the element shows it; and all operations of the pointer in a run are answered, whatever else the
browser refuses. Then the host, the element and the renderer agree after the run. After one
operation more the element shows the cursor that the host has heard of last in any case. But the
three agree just if that operation is answered too; and that is just if the host is not misled when
the pointer leaves then. -/
theorem heard_balanced_tfae (hhovered : layer.renderer.hovered = none)
    (hcursor : element.cursor = .normal) (hanswered : layer.Answered browser operations)
    (last : Operation α) :
    let before := layer.run browser operations
    let after := layer.run browser (operations ++ [last])
    let shown := browser.elementAfter element after.calls
    InStep before (browser.elementAfter element before.calls) ∧
      shown.cursor = after.heard.foldl Cursor.after .normal ∧
      List.TFAE [before.answers browser last = true, InStep after shown,
        LeavesInStep after shown] := by
  intro before after shown
  have hbefore : InStep before (browser.elementAfter element before.calls) :=
    inStep_run hhovered hcursor hanswered
  have hshown : shown.cursor = after.heard.foldl Cursor.after .normal :=
    hcursor ▸ cursor_run layer browser element (operations ++ [last])
  refine ⟨hbefore, hshown, ?_⟩
  tfae_have 1 → 2 := fun hlast ↦
    inStep_run hhovered hcursor (answered_concat_iff.mpr ⟨hanswered, hlast⟩)
  tfae_have 2 → 3 := fun hagree ↦ hagree.leavesInStep
  tfae_have 3 → 1 := by
    intro hleaves
    by_contra hrefused
    have hafter : after = before.next browser last := run_concat layer browser operations last
    obtain ⟨more, hheard, hstep⟩ := heardStep_next before browser element last
    obtain ⟨rfl, hne⟩ := hstep.of_refused (Bool.eq_false_iff.mpr hrefused)
    -- The host has heard nothing new, so it knows what was hovered before.
    rw [← hafter, List.append_nil] at hheard
    rw [← hafter] at hne
    have hknown : HoverBalance after.heard before.layer.renderer.hovered :=
      hheard ▸ hbefore.balance
    let page : Browser α := { browser with refuses := fun _ _ ↦ none }
    exact hne (hleaves.hovered_eq hknown hshown page fun _ _ ↦ rfl)
  tfae_finish

/-- The browser refuses to lay out the element, so the first pass draws nothing, and later to change
the class when the pointer enters a circle. Until then the three parties agree, and then they do
not. -/
theorem heard_balanced_tfae_refused :
    let layer : Layer Float := ⟨.new .standard 32⟩
    let element : Element Float := ⟨[], 0, 0, ⟨1, 1⟩, ⟨0.5, 0.5⟩, .unscaled ⟨0, 0⟩, id⟩
    let browser : Browser Float :=
      { context := .planar
        measure := fun _ _ ↦ .ok 7
        refuses := fun earlier call ↦
          if earlier.length = 2 ∨ call.changesCursor then some .null else none
        window := none
        date := 0 }
    let frame : Frame Float := .padded ⟨0, 0⟩ ⟨200, 100⟩ 0.1 ⟨-22.68, 118.35⟩ 7
    let operations : List (Operation Float) :=
      [.drawPass frame [.circle 1 ⟨0, 0⟩ 5], .movePointerAt ⟨0, 0⟩ 0,
        .drawPass frame [.circle 1 ⟨0, 0⟩ 5]]
    let before := layer.run browser operations
    let after := layer.run browser (operations ++ [.movePointerAt ⟨0, 0⟩ 40])
    InStep before (browser.elementAfter element before.calls) ∧
      ¬ LeavesInStep after (browser.elementAfter element after.calls) := by
  intro layer element browser frame operations before after
  have hfirst := answered_concat_iff.mpr ⟨answered_nil layer browser,
    (by decide +kernel : (layer.run browser []).answers browser operations[0] = true)⟩
  have hsecond := answered_concat_iff.mpr ⟨hfirst,
    (by decide +kernel : (layer.run browser [operations[0]]).answers browser operations[1] = true)⟩
  have hanswered : layer.Answered browser operations := answered_concat_iff.mpr ⟨hsecond,
    (by decide +kernel : (layer.run browser [operations[0], operations[1]]).answers browser
      operations[2] = true)⟩
  have hrefused : before.answers browser (.movePointerAt ⟨0, 0⟩ 40) = false := by decide +kernel
  obtain ⟨hbefore, -, htfae⟩ := heard_balanced_tfae rfl
    (show element.cursor = .normal by decide +kernel) hanswered (.movePointerAt ⟨0, 0⟩ 40)
  refine ⟨hbefore, fun hleaves ↦ ?_⟩
  have hanswers := (htfae.out 2 0).mp hleaves
  rw [hrefused] at hanswers
  cases hanswers

/-- A refused change of class misleads the host. The pointer enters a circle, and the browser
refuses to change the class for it. If the pointer then moves on over the circle, the renderer says
that the circle is hovered, but the host never hears of it and the element never shows it. If it
leaves instead, the host hears that the circle is left, which it has never heard to be entered. -/
theorem refused_class_misleads :
    let layer : Layer Float := ⟨.new .standard 32⟩
    let element : Element Float := ⟨[], 0, 0, ⟨1, 1⟩, ⟨0.5, 0.5⟩, .unscaled ⟨0, 0⟩, id⟩
    let browser : Browser Float :=
      { context := .planar
        measure := fun _ _ ↦ .ok 7
        refuses := fun earlier call ↦
          if call.changesCursor ∧ earlier.all (!·.changesCursor) then some .null else none
        window := none
        date := 0 }
    let frame : Frame Float := .padded ⟨0, 0⟩ ⟨200, 100⟩ 0.1 ⟨-22.68, 118.35⟩ 7
    let entered := layer.run browser
      [.drawPass frame [.circle 1 ⟨0, 0⟩ 5], .movePointerAt ⟨0, 0⟩ 0]
    let moved := entered.next browser (.movePointerAt ⟨1, 1⟩ 40)
    let left := entered.next browser .losePointer
    entered.answers browser (.movePointerAt ⟨1, 1⟩ 40) = true ∧
      moved.layer.renderer.hovered = some 1 ∧ moved.heard = [] ∧
      .interactive ∉ (browser.elementAfter element moved.calls).classes ∧
      entered.answers browser .losePointer = true ∧
      left.heard = [.left 1, .cursor .normal] ∧ ¬ HostBalanced left.heard := by
  intro layer element browser frame entered moved left
  have hheard : left.heard = [.left 1, .cursor .normal] := by decide +kernel
  refine ⟨by decide +kernel, by decide +kernel, by decide +kernel, by decide +kernel,
    by decide +kernel, hheard, fun hhost ↦ ?_⟩
  rw [hheard] at hhost
  exact nomatch hoverBalance_nil.eq_of_hostBalanced_left rfl hhost

end Operations

end Layer

end LabelledMap
