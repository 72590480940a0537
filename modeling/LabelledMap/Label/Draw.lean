import LabelledMap.Feature.Anchor
import LabelledMap.Label.Box
import LabelledMap.Label.Options
import LabelledMap.Surface.Canvas
import LabelledMap.Text.Quoted

/-!
# Drawing labels

One label at a time: its text is measured, its box is offered to the labels placed so far, and if
there is room the text is drawn, a line around it first and the text itself over the line. The
result, a `LabelAttempt`, holds the calls that were made, the outcome and the boxes placed then. A
label whose text has no usable width takes up no room; one that fails while its text is being drawn
keeps the room it was given.
-/

set_option autoImplicit false

namespace LabelledMap

/-- Why something could not be drawn. -/
inductive CanvasFault (α : Type) where
  | refused (refusal : Refusal α)
  /-- A text was measured as negative, infinite or not a number. -/
  | unusableWidth (width : α) (text : String)
  /-- The element has no context to draw in. -/
  | noContext
  /-- The element's context is not one for drawing in the plane. -/
  | foreignContext
deriving DecidableEq

/-- What is reported of a failure to draw. -/
def CanvasFault.message {α : Type} [Legible α] (fault : CanvasFault α) : String :=
  "canvas call failed: " ++
    match fault with
    | refused refusal => refusal.text
    | unusableWidth width text =>
      "unusable text width " ++ Legible.text width ++ " for " ++ quoted text
    | noContext => "2d context unavailable"
    | foreignContext => "context is not a CanvasRenderingContext2d"

/-- What became of a feature's label. -/
inductive LabelOutcome (α : Type) where
  | drawn (box : Rect α)
  /-- Left out: it meets the placed box with this number. -/
  | collided (index : Nat)
  /-- The feature has no label. -/
  | noText
  /-- There is no point to hang the label from. -/
  | noAnchor
  | failed (fault : CanvasFault α)
deriving DecidableEq

/-- An attempt to draw a label: the calls made, the outcome and the labels placed after it. -/
structure LabelAttempt (α : Type) where
  calls : List (CanvasCall α)
  outcome : LabelOutcome α
  placed : PlacedLabels α

variable {α : Type} [Scalar α]

/-- The calls that set up a context for measuring a text. -/
def measuringSetup (options : LabelOptions α) : List (CanvasCall α) :=
  [.alpha 1, .font options.font]

omit [Scalar α] in
/-- The calls that draw a text: the line around it, then the text. -/
def textCalls (options : LabelOptions α) (color text : String) (position : Point α) :
    List (CanvasCall α) :=
  [.lineWidth options.textBorderWeight, .strokeStyle options.textBorderColor,
    .strokeText text position,
    .fillStyle color, .lineWidth options.textWeight, .fillText text position]

/-- A width that a box can have. -/
def usableWidth (width : α) : Bool := Scalar.isFinite width && !(decide (width < 0))

/-- The point that a feature's label hangs from, if it is a point of the plane. -/
def Feature.anchor? (feature : Feature α) : Option (Point α) :=
  feature.shape.anchor?.filter (·.isFinite)

/-- Measures, offers and draws the label of a feature. -/
def drawLabel (canvas : Canvas α) (options : LabelOptions α) (placed : PlacedLabels α)
    (feature : Feature α) : LabelAttempt α :=
  match feature.labelText? with
  | none => ⟨[], .noText, placed⟩
  | some text =>
    match feature.anchor? with
    | none => ⟨[], .noAnchor, placed⟩
    | some anchor =>
      let setup := measuringSetup options
      let measuring := setup ++ [.measure text]
      match canvas.measure setup text with
      | .error refusal => ⟨measuring, .failed (.refused refusal), placed⟩
      | .ok width =>
        if usableWidth width then
          let box := labelBox anchor options.offset width
          match placed.offer box options.collision with
          | .collided index => ⟨measuring, .collided index, placed⟩
          | .placed =>
            let color := feature.textColor.getD options.textColor
            let (made, refused) := (canvas.after measuring).perform
              (textCalls options color text (anchor + options.offset))
            let outcome := match refused with
              | none => .drawn box
              | some refusal => .failed (.refused refusal)
            ⟨measuring ++ made, outcome, placed.push box⟩
        else ⟨measuring, .failed (.unusableWidth width text), placed⟩

end LabelledMap
