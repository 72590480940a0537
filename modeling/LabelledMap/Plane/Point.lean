import LabelledMap.Scalar

/-!
# Points

Points of the layer, measured in pixels from the layer's origin, to the right and downwards. A
point also stands for the displacement to it from the origin, so points are added, subtracted and
scaled.
-/

set_option autoImplicit false

namespace LabelledMap

/-- A point of the layer, or a displacement on it. -/
@[ext]
structure Point (α : Type) where
  x : α
  y : α
deriving DecidableEq

namespace Point

variable {α : Type} [Scalar α]

instance : Add (Point α) := ⟨fun point other ↦ ⟨point.x + other.x, point.y + other.y⟩⟩

instance : Sub (Point α) := ⟨fun point other ↦ ⟨point.x - other.x, point.y - other.y⟩⟩

instance : Neg (Point α) := ⟨fun point ↦ ⟨-point.x, -point.y⟩⟩

instance : SMul α (Point α) := ⟨fun factor point ↦ ⟨factor * point.x, factor * point.y⟩⟩

@[simp] theorem add_x (point other : Point α) : (point + other).x = point.x + other.x := rfl
@[simp] theorem add_y (point other : Point α) : (point + other).y = point.y + other.y := rfl
@[simp] theorem sub_x (point other : Point α) : (point - other).x = point.x - other.x := rfl
@[simp] theorem sub_y (point other : Point α) : (point - other).y = point.y - other.y := rfl
@[simp] theorem neg_x (point : Point α) : (-point).x = -point.x := rfl
@[simp] theorem neg_y (point : Point α) : (-point).y = -point.y := rfl
@[simp] theorem smul_x (factor : α) (point : Point α) : (factor • point).x = factor * point.x := rfl
@[simp] theorem smul_y (factor : α) (point : Point α) : (factor • point).y = factor * point.y := rfl

/-- Each coordinate rounded to whole pixels. -/
def round (point : Point α) : Point α := ⟨Scalar.round point.x, Scalar.round point.y⟩

/-- Whether both coordinates are finite. -/
def isFinite (point : Point α) : Bool := Scalar.isFinite point.x && Scalar.isFinite point.y

/-- The distance between two points. -/
def distanceTo (point other : Point α) : α :=
  Scalar.length (other.x - point.x) (other.y - point.y)

end Point

end LabelledMap
