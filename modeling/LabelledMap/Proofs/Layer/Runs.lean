import LabelledMap.Layer
import LabelledMap.Proofs.Renderer.Hover
import LabelledMap.Proofs.Surface.Element

/-!
# Runs of a layer

Everything that a host can do with a layer, in any order, on a browser that may refuse any call at
any time. A `Layer.Operation` is one of these things, `Layer.History` is what has come of them, and
`Layer.run` is the history of a list of operations. The host hears the actions of an operation that
succeeds; an operation that is ended by a refused call tells it nothing but the reason.

`Layer.Operation.Makes` says which calls an operation can make. Only passes draw, and only
operations of the pointer change the class for it. A call of a run is made by one of its operations
(`Layer.exists_operation_of_calls_eq`).
-/

set_option autoImplicit false

namespace LabelledMap

variable {α : Type}

/-- What stands in two lists in a row stands in the first of them or in the second. -/
theorem exists_of_append_eq_append_cons {β : Type} {first second before later : List β} {item : β}
    (heq : first ++ second = before ++ item :: later) :
    (∃ more, first = before ++ item :: more) ∨
      ∃ made, before = first ++ made ∧ second = made ++ item :: later := by
  rcases List.append_eq_append_iff.mp heq with ⟨made, hbefore, hsecond⟩ | ⟨more, hfirst, hrest⟩
  · exact Or.inr ⟨made, hbefore, hsecond⟩
  · rcases List.cons_eq_append_iff.mp hrest with ⟨rfl, hsecond⟩ | ⟨kept, rfl, -⟩
    · exact Or.inr ⟨[], by simpa using hfirst.symm, hsecond⟩
    · exact Or.inl ⟨kept, hfirst⟩

/-- The actions that the host hears of: none if the operation has failed. -/
def LayerReport.heard (report : LayerReport α (List Action)) : List Action :=
  match report.result with
  | .ok actions => actions
  | .error _ => []

/-- The report of an operation that has nothing to tell of the pointer. -/
def LayerReport.silent {answer : Type} (report : LayerReport α answer) :
    LayerReport α (List Action) :=
  ⟨report.calls, report.result.map fun _ ↦ [], report.layer⟩

namespace Layer

/-- What a host can do with a layer. -/
inductive Operation (α : Type) where
  | init
  /-- The map moves to a centre and zoom level, and the element follows it. -/
  | follow (center : LatLng α) (zoom : α)
  | drawPass (frame : Frame α) (features : List (Feature α))
  | movePointerAt (point : Point α) (now : α)
  /-- The pointer moves, at a time that the browser knows: by its window, or by the calendar. -/
  | movePointer (point : Point α) (window : Option (Window α)) (date : α)
  | losePointer
  | setDevicePixelRatio (ratio : α)
  | setBusy (busy : Bool)
  /-- Other options, which are refused unless they can be drawn with. -/
  | setOptions (options : LabelOptions α)
  /-- Other options, whatever they are. -/
  | assignOptions (options : LabelOptions α)

namespace Operation

/-- Whether the operation tells of the pointer. -/
def isPointer : Operation α → Bool
  | movePointerAt _ _ | movePointer _ _ _ | losePointer => true
  | _ => false

/-- What an operation does. -/
def perform [Analytic α] (layer : Layer α) (browser : Browser α) :
    Operation α → LayerReport α (List Action)
  | init => (layer.init browser).silent
  | follow center zoom => (layer.follow browser center zoom).silent
  | drawPass frame features => (layer.drawPass browser frame features).silent
  | movePointerAt point now => layer.movePointerAt browser point now
  | movePointer point window date => layer.movePointer { browser with window, date } point
  | losePointer => layer.losePointer browser
  | setDevicePixelRatio ratio => ⟨[], .ok [], layer.setDevicePixelRatio ratio⟩
  | setBusy busy => ⟨[], .ok [], ⟨{ layer.renderer with busy }⟩⟩
  | setOptions options =>
    ⟨[], .ok [], ⟨(Renderer.Operation.setOptions options).apply layer.renderer⟩⟩
  | assignOptions options => ⟨[], .ok [], ⟨{ layer.renderer with options }⟩⟩

end Operation

/-- What has come of operations: the calls made, what the host has heard and the layer. -/
structure History (α : Type) where
  calls : List (BrowserCall α)
  heard : List Action
  layer : Layer α

section Runs

variable [Analytic α]

/-- What an operation does after others. -/
def History.report (history : History α) (browser : Browser α) (operation : Operation α) :
    LayerReport α (List Action) :=
  operation.perform history.layer (browser.after history.calls)

/-- The history with one more operation. -/
def History.next (history : History α) (browser : Browser α) (operation : Operation α) :
    History α :=
  let report := history.report browser operation
  ⟨history.calls ++ report.calls, history.heard ++ report.heard, report.layer⟩

/-- The history of operations in order, on a browser that has been asked nothing before. -/
def run (layer : Layer α) (browser : Browser α) (operations : List (Operation α)) : History α :=
  operations.foldl (fun history operation ↦ history.next browser operation) ⟨[], [], layer⟩

theorem run_concat (layer : Layer α) (browser : Browser α) (operations : List (Operation α))
    (last : Operation α) :
    layer.run browser (operations ++ [last]) =
      (layer.run browser operations).next browser last := by
  unfold run
  rw [List.foldl_append]
  rfl

/-- Each call of a run is made by one of the operations, after the calls of those before it. -/
theorem exists_operation_of_calls_eq {layer : Layer α} {browser : Browser α}
    {operations : List (Operation α)} {before later : List (BrowserCall α)} {call : BrowserCall α}
    (hcalls : (layer.run browser operations).calls = before ++ call :: later) :
    ∃ earlier operation rest made more, operations = earlier ++ operation :: rest ∧
      before = (layer.run browser earlier).calls ++ made ∧
      ((layer.run browser earlier).report browser operation).calls = made ++ call :: more := by
  induction operations using List.reverseRecOn generalizing later with
  | nil => exact absurd hcalls.symm (List.append_ne_nil_of_right_ne_nil _ (List.cons_ne_nil _ _))
  | append_singleton operations last ih =>
    rw [run_concat] at hcalls
    rcases exists_of_append_eq_append_cons hcalls with ⟨more, hearlier⟩ | ⟨made, hbefore, hmade⟩
    · obtain ⟨earlier, operation, rest, made, more, rfl, hbefore, hmade⟩ := ih hearlier
      exact ⟨earlier, operation, rest ++ [last], made, more, by simp, hbefore, hmade⟩
    · exact ⟨operations, last, [], made, later, rfl, hbefore, hmade⟩

end Runs

/-! ### What one operation can do -/

section Reports

variable {answer : Type} {layer : Layer α} {browser : Browser α} {calls : List (BrowserCall α)}

/-- Without a refusal all calls are made. -/
theorem performing_of_accepted (haccepted : (browser.perform calls).2 = none) (value : answer) :
    layer.performing browser calls value = ⟨calls, .ok value, layer⟩ := by
  have hperformed : browser.perform calls = (calls, none) :=
    Prod.ext (Refusals.attempt_fst_of_none haccepted) haccepted
  unfold performing
  rw [hperformed]

/-- A refusal ends the operation. -/
theorem performing_of_refused {refusal : Refusal α}
    (hrefused : (browser.perform calls).2 = some refusal) (value : answer) :
    layer.performing browser calls value =
      ⟨(browser.perform calls).1, .error (.refused refusal), layer⟩ := by
  have hperformed : browser.perform calls = ((browser.perform calls).1, some refusal) :=
    Prod.ext rfl hrefused
  unfold performing
  rw [hperformed]

/-- Performing calls makes none but these and leaves the layer. -/
theorem performing_keeps (layer : Layer α) (browser : Browser α) (calls : List (BrowserCall α))
    (value : answer) :
    (layer.performing browser calls value).calls <+: calls ∧
      (layer.performing browser calls value).layer = layer := by
  cases hperformed : (browser.perform calls).2 with
  | none =>
    rw [performing_of_accepted hperformed]
    exact ⟨List.prefix_refl calls, rfl⟩
  | some refusal =>
    rw [performing_of_refused hperformed]
    exact ⟨browser.refusals.attempt_fst_prefix calls, rfl⟩

variable [Scalar α] {frame : Frame α}

/-- A pass whose element can be laid out draws the labels. -/
theorem drawPass_of_accepted
    (haccepted : (browser.perform
      (layoutCalls layer.renderer.options (layer.renderer.layoutFor frame))).2 = none)
    (features : List (Feature α)) :
    layer.drawPass browser frame features =
      let calls := layoutCalls layer.renderer.options (layer.renderer.layoutFor frame)
      let report := (layer.renderer.beginPass frame).drawLabels (browser.after calls).canvas
        (layer.renderer.layoutFor frame) features
      ⟨calls ++ report.calls.map .draw, report.result, ⟨report.renderer⟩⟩ := by
  have hperformed : browser.perform (layoutCalls (layer.renderer.beginPass frame).options
      (layer.renderer.layoutFor frame)) =
        (layoutCalls layer.renderer.options (layer.renderer.layoutFor frame), none) :=
    Prod.ext (Refusals.attempt_fst_of_none haccepted) haccepted
  unfold drawPass
  simp only [hperformed]

/-- A pass whose element cannot be laid out has begun, and draws nothing. -/
theorem drawPass_of_refused {refusal : Refusal α}
    (hrefused : (browser.perform
      (layoutCalls layer.renderer.options (layer.renderer.layoutFor frame))).2 = some refusal)
    (features : List (Feature α)) :
    layer.drawPass browser frame features =
      ⟨(browser.perform (layoutCalls layer.renderer.options (layer.renderer.layoutFor frame))).1,
        .error (.refused refusal), ⟨layer.renderer.beginPass frame⟩⟩ := by
  have hperformed : browser.perform (layoutCalls (layer.renderer.beginPass frame).options
      (layer.renderer.layoutFor frame)) = ((browser.perform
        (layoutCalls layer.renderer.options (layer.renderer.layoutFor frame))).1, some refusal) :=
    Prod.ext rfl hrefused
  unfold drawPass
  simp only [hperformed]

/-- A pass begins, and changes at most the boxes, the targets and the counts after that. -/
theorem drawPass_keeps (layer : Layer α) (browser : Browser α) (frame : Frame α)
    (features : List (Feature α)) :
    ∃ placed targets counts, (layer.drawPass browser frame features).layer.renderer =
      { layer.renderer.beginPass frame with placed, targets, counts } := by
  cases hperformed : (browser.perform
    (layoutCalls layer.renderer.options (layer.renderer.layoutFor frame))).2 with
  | none =>
    rw [drawPass_of_accepted hperformed]
    exact Renderer.drawLabels_keeps (layer.renderer.beginPass frame) _ _ features
  | some refusal =>
    rw [drawPass_of_refused hperformed]
    exact ⟨_, _, _, rfl⟩

end Reports

/-- The calls that an operation can make. -/
def Operation.Makes [Scalar α] (layer : Layer α) (call : BrowserCall α) : Operation α → Prop
  | init => call ∈ elementSetup layer.renderer.options
  | follow _ _ => ∃ placement, call = .style (.transform placement)
  | drawPass frame _ =>
    call ∈ layoutCalls layer.renderer.options (layer.renderer.layoutFor frame) ∨
      ∃ drawing, call = .draw drawing
  | movePointerAt _ _ | movePointer _ _ _ | losePointer => ∃ action, cursorCall? action = some call
  | setDevicePixelRatio _ | setBusy _ | setOptions _ | assignOptions _ => False

/-- An operation makes no other calls. -/
theorem Operation.makes_of_mem_calls [Analytic α] {layer : Layer α} {browser : Browser α}
    {operation : Operation α} {call : BrowserCall α}
    (hcall : call ∈ (operation.perform layer browser).calls) : operation.Makes layer call := by
  have hpointer : ∀ (moved : Layer α) (page : Browser α) (actions : List Action),
      call ∈ (moved.performing page (actions.filterMap cursorCall?) actions).calls →
        ∃ action, cursorCall? action = some call := by
    intro moved page actions hmade
    obtain ⟨action, -, haction⟩ :=
      List.mem_filterMap.mp ((performing_keeps _ _ _ _).1.subset hmade)
    exact ⟨action, haction⟩
  cases operation with
  | init =>
    exact (layer.performing_keeps browser (elementSetup layer.renderer.options) ()).1.subset hcall
  | follow center zoom =>
    change call ∈ (layer.follow browser center zoom).calls at hcall
    unfold Layer.follow at hcall
    cases hplacement : layer.renderer.placement? center zoom with
    | none => simp [hplacement] at hcall
    | some placement =>
      rw [hplacement] at hcall
      exact ⟨placement, List.mem_singleton.mp ((performing_keeps _ _ _ _).1.subset hcall)⟩
  | drawPass frame features =>
    change call ∈ (layer.drawPass browser frame features).calls at hcall
    cases hperformed : (browser.perform
      (layoutCalls layer.renderer.options (layer.renderer.layoutFor frame))).2 with
    | none =>
      rw [drawPass_of_accepted hperformed] at hcall
      rcases List.mem_append.mp hcall with hlaid | hdrawn
      · exact Or.inl hlaid
      · obtain ⟨drawing, -, rfl⟩ := List.mem_map.mp hdrawn
        exact Or.inr ⟨drawing, rfl⟩
    | some refusal =>
      rw [drawPass_of_refused hperformed] at hcall
      exact Or.inl ((browser.refusals.attempt_fst_prefix _).subset hcall)
  | movePointerAt | movePointer | losePointer => exact hpointer _ _ _ hcall
  | setDevicePixelRatio | setBusy | setOptions | assignOptions =>
    exact absurd hcall List.not_mem_nil

end Layer

end LabelledMap
