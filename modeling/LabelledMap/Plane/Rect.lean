import LabelledMap.Plane.Point

/-!
# Rectangles

Rectangles with sides along the axes, given by their top left and bottom right corners. The edges
belong to the rectangle: rectangles that share an edge or a corner meet, and a point on the edge is
inside.
-/

set_option autoImplicit false

namespace LabelledMap

/-- A rectangle from its top left corner `min` to its bottom right corner `max`. -/
@[ext]
structure Rect (α : Type) where
  min : Point α
  max : Point α
deriving DecidableEq

namespace Rect

variable {α : Type} [Scalar α]

/-- The rectangle with two given opposite corners. -/
def ofCorners (corner opposite : Point α) : Rect α where
  min := ⟨Scalar.lesser corner.x opposite.x, Scalar.lesser corner.y opposite.y⟩
  max := ⟨Scalar.greater corner.x opposite.x, Scalar.greater corner.y opposite.y⟩

/-- Width and height. -/
def size (rect : Rect α) : Point α := rect.max - rect.min

def width (rect : Rect α) : α := rect.max.x - rect.min.x

def height (rect : Rect α) : α := rect.max.y - rect.min.y

/-- Whether two rectangles overlap or touch. -/
def meets (rect other : Rect α) : Bool :=
  (rect.min.x ≤ other.max.x && other.min.x ≤ rect.max.x) &&
    (rect.min.y ≤ other.max.y && other.min.y ≤ rect.max.y)

/-- Whether a point lies inside or on the edge. -/
def contains (rect : Rect α) (point : Point α) : Bool :=
  rect.min.x ≤ point.x && point.x ≤ rect.max.x && rect.min.y ≤ point.y && point.y ≤ rect.max.y

end Rect

end LabelledMap
