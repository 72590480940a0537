import LabelledMap.Surface.Canvas
import Mathlib.Tactic.SplitIfs

/-!
# Canvases that answer by the text

A canvas may answer a call by everything it was asked before. A `Canvas.TextOnly` canvas does not:
the width of a text, and whether it can be drawn, depend on that text alone. A `Canvas.Steady`
canvas does not look back for its other answers either, those to changes of its coordinates.

Canvases that treat each call of a list alike refuse the list for the same reason or not at all
(`Canvas.perform_snd_congr`). A canvas that answers by the text goes on doing so
(`Canvas.TextOnly.after`). `Canvas.monospaced` is such a canvas: its characters are all equally
wide, and some texts cannot be measured or filled.
-/

set_option autoImplicit false

namespace LabelledMap

/-- Two pages that treat each call of a list alike, whatever they were asked before, refuse the list
for the same reason or not at all. -/
theorem Refusals.attempt_snd_congr {call reason : Type} {first second : Refusals call reason}
    {calls : List call}
    (hsame : ∀ next ∈ calls, ∀ earlier other, first earlier next = second other next) :
    (first.attempt calls).2 = (second.attempt calls).2 := by
  induction calls generalizing first second with
  | nil => rfl
  | cons next rest ih =>
    have hnext : first [] next = second [] next := hsame next List.mem_cons_self [] []
    have hrest : ((first.after [next]).attempt rest).2 = ((second.after [next]).attempt rest).2 :=
      ih fun later hlater earlier other ↦ hsame later (List.mem_cons_of_mem next hlater) _ _
    unfold Refusals.attempt
    rw [hnext]
    cases second [] next with
    | some reason => rfl
    | none => exact hrest

namespace Canvas

variable {α : Type} {canvas : Canvas α}

/-- Two canvases that treat each refusable call of a list alike, whatever they were asked before,
refuse the list for the same reason or not at all. -/
theorem perform_snd_congr {first second : Canvas α} {calls : List (CanvasCall α)}
    (hsame : ∀ next ∈ calls, next.refusable = true → ∀ earlier other,
      first.refuses earlier next = second.refuses other next) :
    (first.perform calls).2 = (second.perform calls).2 := by
  refine Refusals.attempt_snd_congr fun next hnext earlier other ↦ ?_
  unfold refusals
  split_ifs with hrefusable
  · exact hsame next hnext hrefusable earlier other
  · rfl

/-- The answers to measuring and drawing a text depend on that text alone. -/
structure TextOnly (canvas : Canvas α) : Prop where
  measure : ∀ earlier text, canvas.measure earlier text = canvas.measure [] text
  strokeText : ∀ earlier text position other,
    canvas.refuses earlier (.strokeText text position) = canvas.refuses [] (.strokeText text other)
  fillText : ∀ earlier text position other,
    canvas.refuses earlier (.fillText text position) = canvas.refuses [] (.fillText text other)

/-- No answer depends on what was asked before. -/
structure Steady (canvas : Canvas α) : Prop extends canvas.TextOnly where
  scale : ∀ earlier horizontal vertical, canvas.refuses earlier (.scale horizontal vertical) =
    canvas.refuses [] (.scale horizontal vertical)
  translate : ∀ earlier displacement, canvas.refuses earlier (.translate displacement) =
    canvas.refuses [] (.translate displacement)

/-- A canvas goes on answering by the text. -/
theorem TextOnly.after (htext : canvas.TextOnly) (made : List (CanvasCall α)) :
    (canvas.after made).TextOnly where
  measure earlier text := by
    change canvas.measure (made ++ earlier) text = canvas.measure (made ++ []) text
    rw [htext.measure, htext.measure (made ++ [])]
  strokeText earlier text position other := by
    change canvas.refuses (made ++ earlier) _ = canvas.refuses (made ++ []) _
    rw [htext.strokeText _ text position other, htext.strokeText (made ++ []) text other other]
  fillText earlier text position other := by
    change canvas.refuses (made ++ earlier) _ = canvas.refuses (made ++ []) _
    rw [htext.fillText _ text position other, htext.fillText (made ++ []) text other other]

/-- The width of a text is the same at any time. -/
theorem TextOnly.measure_after (htext : canvas.TextOnly) (made earlier : List (CanvasCall α))
    (text : String) : (canvas.after made).measure earlier text = canvas.measure earlier text := by
  change canvas.measure (made ++ earlier) text = _
  rw [htext.measure, htext.measure earlier]

/-- A canvas on which all characters are equally wide. It measures all texts but some, and fills all
texts but some. -/
def monospaced [Scalar α] (charWidth : α) (unmeasurable unfillable : List String) : Canvas α where
  measure _ text :=
    if unmeasurable.contains text then .error (.message text)
    else .ok (Scalar.ofNat text.length * charWidth)
  refuses _ call :=
    match call with
    | .fillText text _ => if unfillable.contains text then some (.message text) else none
    | _ => none

theorem steady_monospaced [Scalar α] (charWidth : α) (unmeasurable unfillable : List String) :
    (monospaced charWidth unmeasurable unfillable).Steady where
  measure _ _ := rfl
  strokeText _ _ _ _ := rfl
  fillText _ _ _ _ := rfl
  scale _ _ _ := rfl
  translate _ _ := rfl

end Canvas

end LabelledMap
