import LabelledMap.Plane.Point
import LabelledMap.Surface.Attempt

/-!
# Canvases

The calls that labels are drawn with, and what a canvas answers. A canvas measures texts, and it may
refuse to measure, to draw a text and to change its coordinates; setting a font, a colour, an
opacity or a line width never fails. `Canvas.after` is the canvas once some calls have been made.
-/

set_option autoImplicit false

namespace LabelledMap

/-- A call to a drawing context. -/
inductive CanvasCall (α : Type) where
  | font (name : String)
  | measure (text : String)
  | alpha (opacity : α)
  | lineWidth (width : α)
  | strokeStyle (color : String)
  | fillStyle (color : String)
  | strokeText (text : String) (position : Point α)
  | fillText (text : String) (position : Point α)
  | scale (horizontal vertical : α)
  | translate (displacement : Point α)

namespace CanvasCall

variable {α : Type}

/-- Whether a canvas can refuse the call. -/
def refusable : CanvasCall α → Bool
  | measure _ | strokeText _ _ | fillText _ _ | scale _ _ | translate _ => true
  | font _ | alpha _ | lineWidth _ | strokeStyle _ | fillStyle _ => false

end CanvasCall

/-- How a canvas answers, given the calls made earlier. -/
structure Canvas (α : Type) where
  /-- The width of a text in the current font, or why it cannot be measured. -/
  measure : List (CanvasCall α) → String → Except (Refusal α) α
  /-- Why a call is refused, asked of those that can be. -/
  refuses : Refusals (CanvasCall α) (Refusal α)

namespace Canvas

variable {α : Type}

/-- The canvas once some calls have been made. -/
def after (canvas : Canvas α) (made : List (CanvasCall α)) : Canvas α where
  measure earlier text := canvas.measure (made ++ earlier) text
  refuses := canvas.refuses.after made

/-- The refusals of a canvas; a call that cannot be refused is accepted. -/
def refusals (canvas : Canvas α) : Refusals (CanvasCall α) (Refusal α) :=
  fun earlier call ↦ if call.refusable then canvas.refuses earlier call else none

/-- Makes calls one after the other up to the first one refused. -/
def perform (canvas : Canvas α) (calls : List (CanvasCall α)) :
    List (CanvasCall α) × Option (Refusal α) :=
  canvas.refusals.attempt calls

@[simp] theorem after_nil (canvas : Canvas α) : canvas.after [] = canvas := rfl

theorem after_after (canvas : Canvas α) (first second : List (CanvasCall α)) :
    (canvas.after first).after second = canvas.after (first ++ second) := by
  simp only [after, Refusals.after_after, List.append_assoc]

end Canvas

end LabelledMap
