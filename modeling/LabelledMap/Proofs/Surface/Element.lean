import LabelledMap.Surface.Browser
import Mathlib.Data.List.Basic

/-!
# The element as it is shown

What calls to the browser do to the overlay's element. `Element` holds what is to be seen of it: its
classes, the number of device pixels behind it, its size and placement on the page, and where its
context puts a point that is drawn. Resizing resets the context; scales and displacements of the
context compose, so that the last one asked for acts first on a point. `Element.shownAt` is the
point of the layer at which something drawn at a point is seen: the context takes it to a device
pixel, the device pixels are stretched over the size of the element, and the element is placed.

A call that is refused has no effect. `Browser.elementAfter` is the element once calls have been
made of which the browser refused some, and calls made after others go on from the element that
those have left (`Browser.elementAfter_append`).
-/

set_option autoImplicit false

namespace LabelledMap

/-! ### Accepted calls -/

namespace Refusals

variable {call reason : Type}

/-- Of calls made one after the other, those that are not refused. -/
def accepted (refusals : Refusals call reason) : List call → List call
  | [] => []
  | next :: rest =>
    let later := accepted (refusals.after [next]) rest
    if (refusals [] next).isNone then next :: later else later

theorem accepted_append (refusals : Refusals call reason) (first second : List call) :
    refusals.accepted (first ++ second) =
      refusals.accepted first ++ (refusals.after first).accepted second := by
  induction first generalizing refusals with
  | nil => rfl
  | cons next rest ih =>
    simp only [List.cons_append, accepted, ih, after_after]
    split_ifs
    · rfl
    · rfl

theorem accepted_sublist (refusals : Refusals call reason) (calls : List call) :
    (refusals.accepted calls).Sublist calls := by
  induction calls generalizing refusals with
  | nil => exact List.Sublist.slnil
  | cons next rest ih =>
    unfold accepted
    split_ifs
    · exact (ih _).cons_cons next
    · exact (ih _).cons next

/-- Where nothing is refused, all calls are made. -/
theorem attempt_of_allows {refusals : Refusals call reason}
    (hallows : ∀ earlier next, refusals earlier next = none) (calls : List call) :
    refusals.attempt calls = (calls, none) := by
  induction calls generalizing refusals with
  | nil => rfl
  | cons next rest ih =>
    have hrest : (refusals.after [next]).attempt rest = (rest, none) :=
      ih fun earlier later ↦ hallows (next :: earlier) later
    unfold attempt
    rw [hallows, hrest]

/-- Calls seen as others are attempted as those, if each is refused just as the other is. -/
theorem attempt_map {other : Type} (view : call → other) (refusals : Refusals call reason)
    (viewed : Refusals other reason)
    (hview : ∀ earlier next, refusals earlier next = viewed (earlier.map view) (view next))
    (calls : List call) :
    viewed.attempt (calls.map view) =
      ((refusals.attempt calls).1.map view, (refusals.attempt calls).2) := by
  induction calls generalizing refusals viewed with
  | nil => rfl
  | cons next rest ih =>
    have hnext : refusals [] next = viewed [] (view next) := hview [] next
    rw [List.map_cons]
    unfold attempt
    rw [← hnext]
    cases refusals [] next with
    | some reason => rfl
    | none =>
      have hafter : ∀ earlier later, refusals.after [next] earlier later =
          viewed.after [view next] (earlier.map view) (view later) :=
        fun earlier later ↦ hview (next :: earlier) later
      dsimp only
      rw [ih _ _ hafter]
      rfl

/-- If the first list is accepted, the second is attempted after it. -/
theorem attempt_append_of_accepted {refusals : Refusals call reason} {first : List call}
    (haccepted : (refusals.attempt first).2 = none) (second : List call) :
    refusals.attempt (first ++ second) =
      (first ++ ((refusals.after first).attempt second).1,
        ((refusals.after first).attempt second).2) := by
  have hattempt : refusals.attempt first = (first, none) :=
    Prod.ext (attempt_fst_of_none haccepted) haccepted
  rw [attempt_append, hattempt]

/-- A refusal in the first list leaves the second unattempted. -/
theorem attempt_append_of_refused {refusals : Refusals call reason} {first : List call}
    {found : reason} (hrefused : (refusals.attempt first).2 = some found) (second : List call) :
    refusals.attempt (first ++ second) = refusals.attempt first := by
  have hattempt : refusals.attempt first = ((refusals.attempt first).1, some found) :=
    Prod.ext rfl hrefused
  rw [attempt_append, hattempt]

/-- Calls attempted without a refusal are all accepted. -/
theorem accepted_of_attempt {refusals : Refusals call reason} {calls : List call}
    (haccepted : (refusals.attempt calls).2 = none) : refusals.accepted calls = calls := by
  induction calls generalizing refusals with
  | nil => rfl
  | cons next rest ih =>
    unfold attempt at haccepted
    unfold accepted
    cases hnext : refusals [] next with
    | some reason => simp [hnext] at haccepted
    | none =>
      simp only [hnext] at haccepted
      rw [ih haccepted]
      rfl

/-- Of calls attempted up to a refusal, all are accepted but the one refused. -/
theorem accepted_of_refused {refusals : Refusals call reason} {calls : List call} {found : reason}
    (hrefused : (refusals.attempt calls).2 = some found) :
    refusals.accepted (refusals.attempt calls).1 = (refusals.attempt calls).1.dropLast := by
  induction calls generalizing refusals with
  | nil => cases hrefused
  | cons next rest ih =>
    unfold attempt at hrefused ⊢
    cases hnext : refusals [] next with
    | some reason => simp [accepted, hnext]
    | none =>
      simp only [hnext] at hrefused ⊢
      have hmade : ((refusals.after [next]).attempt rest).1 ≠ [] := by
        cases rest with
        | nil => cases hrefused
        | cons later rest =>
          unfold attempt
          split
          · exact List.cons_ne_nil _ _
          · exact List.cons_ne_nil _ _
      rw [accepted, ih hrefused, hnext, List.dropLast_cons_of_ne_nil hmade]
      rfl

end Refusals

/-- A canvas that refuses nothing performs all calls. -/
theorem Canvas.perform_of_allows {α : Type} {canvas : Canvas α}
    (hallows : ∀ earlier call, canvas.refuses earlier call = none) (calls : List (CanvasCall α)) :
    canvas.perform calls = (calls, none) := by
  refine Refusals.attempt_of_allows (fun earlier call ↦ ?_) calls
  unfold refusals
  rw [hallows, ite_self]

/-- A browser that refuses nothing performs all calls. -/
theorem Browser.perform_of_allows {α : Type} {browser : Browser α}
    (hallows : ∀ earlier call, browser.refuses earlier call = none)
    (calls : List (BrowserCall α)) : browser.perform calls = (calls, none) := by
  refine Refusals.attempt_of_allows (fun earlier call ↦ ?_) calls
  unfold refusals
  rw [hallows, ite_self]

/-! ### The element -/

/-- What is to be seen of the element. -/
structure Element (α : Type) where
  classes : List ElementClass
  deviceWidth : UInt32
  deviceHeight : UInt32
  /-- The size on the page. -/
  size : Point α
  /-- The fixed point of the placement's scale, as a fraction of the size. -/
  pivot : Point α
  placement : Placement α
  /-- The device pixel at which the context draws a point. -/
  context : Point α → Point α

namespace Element

variable {α : Type}

section Calls

variable [Scalar α]

/-- The element after a call that the browser has accepted. -/
def after (element : Element α) : BrowserCall α → Element α
  | .deviceWidth pixels => { element with deviceWidth := pixels, context := id }
  | .deviceHeight pixels => { element with deviceHeight := pixels, context := id }
  | .style (.width length) => { element with size := ⟨length, element.size.y⟩ }
  | .style (.height length) => { element with size := ⟨element.size.x, length⟩ }
  | .style .transformOrigin => { element with pivot := ⟨0, 0⟩ }
  | .style (.transform placement) => { element with placement }
  | .addClass name => { element with classes := element.classes.insert name }
  | .removeClass name => { element with classes := element.classes.filter (· ≠ name) }
  | .draw (.scale horizontal vertical) =>
    { element with
      context := fun point ↦ element.context ⟨horizontal * point.x, vertical * point.y⟩ }
  | .draw (.translate displacement) =>
    { element with context := fun point ↦ element.context (displacement + point) }
  | _ => element

/-- The point of the layer at which a point drawn by the context is seen. -/
def shownAt (element : Element α) (point : Point α) : Point α :=
  let device := element.context point
  let pixel : Point α :=
    ⟨device.x * element.size.x / Scalar.ofNat element.deviceWidth.toNat,
      device.y * element.size.y / Scalar.ofNat element.deviceHeight.toNat⟩
  let pivot : Point α := ⟨element.pivot.x * element.size.x, element.pivot.y * element.size.y⟩
  element.placement.topLeft + pivot + element.placement.scale • (pixel - pivot)

end Calls

end Element

namespace Browser

variable {α : Type} [Scalar α]

/-- The element once calls have been made on it. Those that the browser refuses have no effect. -/
def elementAfter (browser : Browser α) (element : Element α) (calls : List (BrowserCall α)) :
    Element α :=
  (browser.refusals.accepted calls).foldl Element.after element

omit [Scalar α] in
theorem refusals_after (browser : Browser α) (made : List (BrowserCall α)) :
    (browser.after made).refusals = browser.refusals.after made := rfl

theorem elementAfter_append (browser : Browser α) (element : Element α)
    (first second : List (BrowserCall α)) :
    browser.elementAfter element (first ++ second) =
      (browser.after first).elementAfter (browser.elementAfter element first) second := by
  unfold elementAfter
  rw [Refusals.accepted_append, List.foldl_append, refusals_after]

omit [Scalar α] in
/-- The browser performs drawing calls as its canvas does. -/
theorem perform_map_draw (browser : Browser α) (calls : List (CanvasCall α)) :
    browser.perform (calls.map .draw) =
      ((browser.canvas.perform calls).1.map .draw, (browser.canvas.perform calls).2) :=
  Refusals.attempt_map BrowserCall.draw browser.canvas.refusals browser.refusals
    (fun _ _ ↦ rfl) calls

/-- Calls that the browser performs without a refusal all have their effect. -/
theorem elementAfter_of_perform {browser : Browser α} {calls : List (BrowserCall α)}
    (haccepted : (browser.perform calls).2 = none) (element : Element α) :
    browser.elementAfter element calls = calls.foldl Element.after element := by
  unfold elementAfter
  rw [Refusals.accepted_of_attempt haccepted]

/-- Of calls performed up to a refusal, all have their effect but the one refused. -/
theorem elementAfter_of_refused {browser : Browser α} {calls : List (BrowserCall α)}
    {refusal : Refusal α} (hrefused : (browser.perform calls).2 = some refusal)
    (element : Element α) :
    browser.elementAfter element (browser.perform calls).1 =
      (browser.perform calls).1.dropLast.foldl Element.after element := by
  unfold elementAfter perform at *
  rw [Refusals.accepted_of_refused hrefused]

/-- What no call changes of the element stays, whichever calls are refused. -/
theorem elementAfter_keeps {β : Type} (view : Element α → β) {calls : List (BrowserCall α)}
    (hkeeps : ∀ call ∈ calls, ∀ element : Element α, view (element.after call) = view element)
    (browser : Browser α) (element : Element α) :
    view (browser.elementAfter element calls) = view element := by
  have haccepted : ∀ made : List (BrowserCall α), made.Sublist calls → ∀ start : Element α,
      view (made.foldl Element.after start) = view start := by
    intro made hmade start
    induction made generalizing start with
    | nil => rfl
    | cons call rest ih =>
      rw [List.foldl_cons, ih (List.sublist_of_cons_sublist hmade)]
      exact hkeeps call (hmade.subset List.mem_cons_self) start
  exact haccepted _ (Refusals.accepted_sublist _ _) element

end Browser

end LabelledMap
