import LabelledMap.Plane.Point

/-!
# Features

What a map draws: a shape in layer pixels with its style, whether the pointer may touch it, and the
text of its label. An empty text is no label.
-/

set_option autoImplicit false

namespace LabelledMap

/-- Names a feature across drawings. -/
abbrev FeatureId := UInt64

/-- The geometry of a feature in layer pixels. -/
inductive Shape (α : Type) where
  | circle (center : Point α) (radius : α)
  /-- Lines through the vertices of each part; in a closed path each part returns to its start, and
  the parts together bound an area. -/
  | path (parts : List (List (Point α))) (closed : Bool)

/-- A shape with its style and label. -/
structure Feature (α : Type) where
  id : FeatureId
  shape : Shape α
  /-- The width of the stroke. -/
  weight : α
  /-- Whether the pointer can hover over the shape and click it. -/
  interactive : Bool := true
  label : Option String := none
  /-- The colour of the label, where it is not the common one. -/
  textColor : Option String := none
  fillColor : Option String := none

namespace Feature

variable {α : Type}

/-- A circle with a thin stroke. -/
def circle [Scalar α] (id : FeatureId) (center : Point α) (radius : α) : Feature α where
  id := id
  shape := .circle center radius
  weight := 1

/-- An open line. -/
def polyline [Scalar α] (id : FeatureId) (points : List (Point α)) : Feature α where
  id := id
  shape := .path [points] false
  weight := 3

/-- An area bounded by rings. -/
def polygon [Scalar α] (id : FeatureId) (rings : List (List (Point α))) : Feature α where
  id := id
  shape := .path rings true
  weight := 3

/-- The text of the label, if there is any. -/
def labelText? (feature : Feature α) : Option String := feature.label.filter (· ≠ "")

end Feature

end LabelledMap
