import LabelledMap.Plane.Rect

/-!
# Label boxes

A label takes up a box that starts at its anchor, moved by the offset, and is as wide as its text.
Labels are placed in the order in which they are offered: one that meets no box placed before it is
added, and one that does is left out, however many labels come later. The boxes stay in that order,
so the number of a box never changes.
-/

set_option autoImplicit false

namespace LabelledMap

variable {α : Type}

/-- How far a label's box extends below its upper edge. -/
def labelHeight [Scalar α] : α := 20

/-- The box of a label with a text of the given width. -/
def labelBox [Scalar α] (anchor offset : Point α) (width : α) : Rect α :=
  let corner := anchor + offset
  .ofCorners corner ⟨corner.x + width, corner.y + labelHeight⟩

/-- The boxes of the labels placed so far, in the order of placing. -/
structure PlacedLabels (α : Type) where
  boxes : List (Rect α)

/-- What becomes of a label that is offered. -/
inductive Offer where
  | placed
  /-- It meets the placed box with this number. -/
  | collided (index : Nat)
deriving DecidableEq

namespace PlacedLabels

instance : EmptyCollection (PlacedLabels α) := ⟨⟨[]⟩⟩

def size (placed : PlacedLabels α) : Nat := placed.boxes.length

/-- The labels with one more box. -/
def push (placed : PlacedLabels α) (box : Rect α) : PlacedLabels α := ⟨placed.boxes ++ [box]⟩

variable [Scalar α]

/-- The number of the first placed box that meets a box. -/
def firstCollision? (placed : PlacedLabels α) (box : Rect α) : Option Nat :=
  placed.boxes.findIdx? (·.meets box)

/-- Whether a box can be placed. With `avoid` off every box can. -/
def offer (placed : PlacedLabels α) (box : Rect α) (avoid : Bool) : Offer :=
  if avoid then
    match placed.firstCollision? box with
    | some index => .collided index
    | none => .placed
  else .placed

/-- The labels after a box has been offered: with it, if it could be placed. -/
def place (placed : PlacedLabels α) (box : Rect α) (avoid : Bool) : PlacedLabels α :=
  match placed.offer box avoid with
  | .placed => placed.push box
  | .collided _ => placed

end PlacedLabels

end LabelledMap
