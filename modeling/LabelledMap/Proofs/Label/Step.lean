import LabelledMap.Label.Draw
import LabelledMap.Proofs.Surface.TextOnly

/-!
# What one label can do

`LabelStep` lists what becomes of a single label: the outcome it has and the boxes placed after it,
given the box that it asks for (`askedBox?`) and the boxes placed before. `labelStep_drawLabel` says
that drawing a label is always such a step, so that what holds of the labels of a pass is proved
from these six cases and not from the calls made for them. A label takes up room in two of them:
when it is drawn, and when a call to draw it is refused after its box was placed
(`LabelStep.size_eq`).

Meeting is symmetric (`Rect.meets_comm`), and an offer is answered by the first placed box that
meets the offered one (`PlacedLabels.offer_eq_collided_iff`, `PlacedLabels.offer_eq_placed_iff`). On
a canvas that answers by the text a label does the same whenever it is attempted
(`Canvas.TextOnly.drawLabel_after`).
-/

set_option autoImplicit false

namespace LabelledMap

variable {α : Type} [Scalar α]

/-! ### Offers -/

theorem Rect.meets_comm (rect other : Rect α) : rect.meets other = other.meets rect := by
  unfold Rect.meets
  rw [Bool.and_comm (decide (rect.min.x ≤ other.max.x)),
    Bool.and_comm (decide (rect.min.y ≤ other.max.y))]

namespace PlacedLabels

variable {placed : PlacedLabels α} {box : Rect α}

/-- A box is placed if it meets no box placed before. -/
theorem offer_eq_placed_iff :
    placed.offer box true = .placed ↔ ∀ other ∈ placed.boxes, other.meets box = false := by
  unfold offer firstCollision?
  rw [← List.findIdx?_eq_none_iff, if_pos rfl]
  cases placed.boxes.findIdx? (·.meets box) <;> simp

/-- A box collides with the first placed box that it meets. -/
theorem offer_eq_collided_iff {index : Nat} :
    placed.offer box true = .collided index ↔
      ∃ found, placed.boxes[index]? = some found ∧ found.meets box = true ∧
        ∀ number < index, ∀ other, placed.boxes[number]? = some other →
          other.meets box = false := by
  have hfirst : placed.offer box true = .collided index ↔
      placed.boxes.findIdx? (·.meets box) = some index := by
    unfold offer firstCollision?
    rw [if_pos rfl]
    cases placed.boxes.findIdx? (·.meets box) <;> simp
  rw [hfirst, List.findIdx?_eq_some_iff_getElem]
  constructor
  · rintro ⟨hindex, hmeets, hbefore⟩
    refine ⟨placed.boxes[index], List.getElem?_eq_getElem hindex, hmeets, ?_⟩
    intro number hnumber other hother
    obtain ⟨hlength, rfl⟩ := List.getElem?_eq_some_iff.mp hother
    exact Bool.eq_false_iff.mpr (hbefore number hnumber)
  · rintro ⟨found, hfound, hmeets, hbefore⟩
    obtain ⟨hindex, rfl⟩ := List.getElem?_eq_some_iff.mp hfound
    refine ⟨hindex, hmeets, fun number hnumber ↦ ?_⟩
    rw [hbefore number hnumber _ (List.getElem?_eq_getElem (Nat.lt_trans hnumber hindex))]
    exact Bool.false_ne_true

end PlacedLabels

/-! ### Steps -/

/-- The box that a feature's label asks for on a canvas. There is none without a text, an anchor or
a usable width. -/
def askedBox? (canvas : Canvas α) (options : LabelOptions α) (feature : Feature α) :
    Option (Rect α) :=
  match feature.labelText?, feature.anchor? with
  | some text, some anchor =>
    match canvas.measure (measuringSetup options) text with
    | .ok width => if usableWidth width then some (labelBox anchor options.offset width) else none
    | .error _ => none
  | _, _ => none

/-- Whether a label was drawn. -/
def LabelOutcome.isDrawn : LabelOutcome α → Bool
  | .drawn _ => true
  | _ => false

/-- Whether a label could not be measured or drawn. -/
def LabelOutcome.isFailed : LabelOutcome α → Bool
  | .failed _ => true
  | _ => false

/-- What can become of a label that asks for a box, or for none: the outcome, and the boxes placed
afterwards. -/
inductive LabelStep (avoid : Bool) (placed : PlacedLabels α) :
    Option (Rect α) → LabelOutcome α → PlacedLabels α → Prop
  | noText : LabelStep avoid placed none .noText placed
  | noAnchor : LabelStep avoid placed none .noAnchor placed
  | unmeasured (fault : CanvasFault α) : LabelStep avoid placed none (.failed fault) placed
  | collided {box : Rect α} {index : Nat} (hoffer : placed.offer box avoid = .collided index) :
    LabelStep avoid placed (some box) (.collided index) placed
  | drawn {box : Rect α} (hoffer : placed.offer box avoid = .placed) :
    LabelStep avoid placed (some box) (.drawn box) (placed.push box)
  /-- The box stays although its label is not drawn. -/
  | refused {box : Rect α} (hoffer : placed.offer box avoid = .placed) (fault : CanvasFault α) :
    LabelStep avoid placed (some box) (.failed fault) (placed.push box)

/-- Drawing a label is a step. -/
theorem labelStep_drawLabel (canvas : Canvas α) (options : LabelOptions α)
    (placed : PlacedLabels α) (feature : Feature α) :
    LabelStep options.collision placed (askedBox? canvas options feature)
      (drawLabel canvas options placed feature).outcome
      (drawLabel canvas options placed feature).placed := by
  unfold drawLabel askedBox?
  cases feature.labelText? with
  | none => exact .noText
  | some text =>
    cases feature.anchor? with
    | none => exact .noAnchor
    | some anchor =>
      dsimp only
      cases canvas.measure (measuringSetup options) text with
      | error refusal => exact .unmeasured _
      | ok width =>
        dsimp only
        split_ifs with husable
        · cases hoffer : placed.offer (labelBox anchor options.offset width) options.collision with
          | collided index => exact .collided hoffer
          | placed =>
            dsimp only
            split
            · exact .drawn hoffer
            · exact .refused hoffer _
        · exact .unmeasured _

/-- A failed label that asked for no box, like one that is skipped, takes up no room. -/
theorem LabelStep.placed_eq {avoid : Bool} {placed next : PlacedLabels α}
    {asked : Option (Rect α)} {outcome : LabelOutcome α}
    (hstep : LabelStep avoid placed asked outcome next)
    (hidle : asked = none ∨ ∃ index, outcome = .collided index) : next = placed := by
  cases hstep with
  | noText | noAnchor | unmeasured | collided => rfl
  | drawn | refused => simp at hidle

/-- A label leaves the boxes placed before it where they are. -/
theorem LabelStep.prefix_boxes {avoid : Bool} {placed next : PlacedLabels α}
    {asked : Option (Rect α)} {outcome : LabelOutcome α}
    (hstep : LabelStep avoid placed asked outcome next) : placed.boxes <+: next.boxes := by
  cases hstep with
  | noText | noAnchor | unmeasured | collided => exact List.prefix_refl _
  | drawn | refused => exact List.prefix_append _ _

/-- Room is taken up by a label that is drawn, and by one that fails although it asked for a box. -/
theorem LabelStep.size_eq {avoid : Bool} {placed next : PlacedLabels α}
    {asked : Option (Rect α)} {outcome : LabelOutcome α}
    (hstep : LabelStep avoid placed asked outcome next) :
    next.size = placed.size + (if outcome.isDrawn then 1 else 0) +
      (if outcome.isFailed && asked.isSome then 1 else 0) := by
  cases hstep with
  | noText | noAnchor | unmeasured | collided => rfl
  | drawn | refused =>
    simp [PlacedLabels.size, PlacedLabels.push, LabelOutcome.isDrawn, LabelOutcome.isFailed]

/-! ### Canvases that answer by the text -/

namespace Canvas

variable {canvas : Canvas α} {options : LabelOptions α}

omit [Scalar α] in
/-- A text is drawn, or refused for the same reason, at any time. -/
theorem TextOnly.perform_textCalls_after (htext : canvas.TextOnly) (made : List (CanvasCall α))
    (color text : String) (position : Point α) :
    ((canvas.after made).perform (textCalls options color text position)).2 =
      (canvas.perform (textCalls options color text position)).2 := by
  refine perform_snd_congr fun next hnext hrefusable earlier other ↦ ?_
  simp only [textCalls, List.mem_cons, List.not_mem_nil, or_false] at hnext
  change canvas.refuses (made ++ earlier) next = canvas.refuses other next
  rcases hnext with rfl | rfl | rfl | rfl | rfl | rfl
  · simp [CanvasCall.refusable] at hrefusable
  · simp [CanvasCall.refusable] at hrefusable
  · rw [htext.strokeText _ text position position, htext.strokeText other text position position]
  · simp [CanvasCall.refusable] at hrefusable
  · simp [CanvasCall.refusable] at hrefusable
  · rw [htext.fillText _ text position position, htext.fillText other text position position]

/-- A label asks for the same box at any time. -/
theorem TextOnly.askedBox?_after (htext : canvas.TextOnly) (made : List (CanvasCall α))
    (feature : Feature α) :
    askedBox? (canvas.after made) options feature = askedBox? canvas options feature := by
  unfold askedBox?
  simp only [htext.measure_after made]

/-- A label has the same outcome, and leaves the same boxes placed, at any time. -/
theorem TextOnly.drawLabel_after (htext : canvas.TextOnly) (made : List (CanvasCall α))
    (options : LabelOptions α) (placed : PlacedLabels α) (feature : Feature α) :
    (drawLabel (canvas.after made) options placed feature).outcome =
        (drawLabel canvas options placed feature).outcome ∧
      (drawLabel (canvas.after made) options placed feature).placed =
        (drawLabel canvas options placed feature).placed := by
  unfold drawLabel
  cases feature.labelText? with
  | none => exact ⟨rfl, rfl⟩
  | some text =>
    cases feature.anchor? with
    | none => exact ⟨rfl, rfl⟩
    | some anchor =>
      dsimp only
      rw [htext.measure_after made]
      cases canvas.measure (measuringSetup options) text with
      | error refusal => exact ⟨rfl, rfl⟩
      | ok width =>
        dsimp only
        split_ifs with husable
        · cases placed.offer (labelBox anchor options.offset width) options.collision with
          | collided index => exact ⟨rfl, rfl⟩
          | placed =>
            have hafter : ((canvas.after made).after (measuringSetup options ++ [.measure text])) =
                canvas.after (made ++ (measuringSetup options ++ [.measure text])) :=
              canvas.after_after made _
            dsimp only
            rw [hafter, htext.perform_textCalls_after, htext.perform_textCalls_after]
            exact ⟨rfl, rfl⟩
        · exact ⟨rfl, rfl⟩

end Canvas

end LabelledMap
