import LabelledMap.Feature.Anchor

/-!
# Hits

Which shape is under the pointer. A circle is hit up to a tolerance beyond its radius, the stroke
of a path up to half its weight and the tolerance, and a closed path also everywhere inside: a point
is inside if a ray from it crosses the rings an odd number of times, so that holes are left out.
Where shapes lie above each other the one drawn last is hit.
-/

set_option autoImplicit false

namespace LabelledMap

variable {α : Type}

/-- The sides of a ring, each with the vertex before it, beginning with the side that closes it. -/
def ringSides (ring : List (Point α)) : List (Point α × Point α) :=
  match ring.getLast? with
  | none => []
  | some last => ring.zip (last :: ring)

variable [Scalar α]

/-- Whether the ray to the right of a point crosses a side; a vertex level with the point counts as
lying above it. -/
def rayCrosses (point : Point α) (side : Point α × Point α) : Bool :=
  let (start, stop) := side
  (decide (point.y < start.y) != decide (point.y < stop.y)) &&
    point.x < (stop.x - start.x) * (point.y - start.y) / (stop.y - start.y) + start.x

/-- Whether a point is inside rings by the number of crossings. A ring with fewer than three
vertices bounds nothing. -/
def insideRings (rings : List (List (Point α))) (point : Point α) : Bool :=
  let sides := (rings.filter (fun ring ↦ 3 ≤ ring.length)).flatMap ringSides
  (sides.countP (rayCrosses point)) % 2 == 1

/-- The distance from a point to the nearest point of a segment. -/
def segmentDistance (point start stop : Point α) : α :=
  let along := stop - start
  let square := along.x * along.x + along.y * along.y
  if square == 0 then point.distanceTo start
  else
    let product := (point.x - start.x) * along.x + (point.y - start.y) * along.y
    point.distanceTo (start + Scalar.clamp (product / square) 0 1 • along)

/-- Whether a point is within `reach` of one part of a path. A closed part with more than two
vertices has a side from its last vertex to its first, and a lone vertex is a part by itself. -/
def nearPart (closed : Bool) (point : Point α) (reach : α) (part : List (Point α)) : Bool :=
  (segments part).any (fun (start, stop) ↦ segmentDistance point start stop ≤ reach) ||
    match part with
    | [] => false
    | [vertex] => point.distanceTo vertex ≤ reach
    | [_, _] => false
    | first :: rest => closed && segmentDistance point (rest.getLastD first) first ≤ reach

/-- Whether a point is within `reach` of the stroke of a path. -/
def nearStroke (parts : List (List (Point α))) (closed : Bool) (point : Point α) (reach : α) :
    Bool :=
  parts.any (nearPart closed point reach)

/-- A drawn shape that the pointer can touch. -/
structure Target (α : Type) where
  id : FeatureId
  shape : Shape α
  weight : α

namespace Target

omit [Scalar α] in
/-- The target of an interactive feature. -/
def ofFeature? (feature : Feature α) : Option (Target α) :=
  if feature.interactive then some ⟨feature.id, feature.shape, feature.weight⟩ else none

/-- Whether a point hits the shape, within a tolerance in pixels. -/
def contains (target : Target α) (point : Point α) (tolerance : α) : Bool :=
  match target.shape with
  | .circle center radius => point.distanceTo center ≤ radius + tolerance
  | .path parts closed =>
    (closed && insideRings parts point) ||
      nearStroke parts closed point (target.weight / 2 + tolerance)

/-- The target on top at a point: of those hit, the one drawn last. -/
def topmost? (targets : List (Target α)) (point : Point α) (tolerance : α) : Option FeatureId :=
  (targets.reverse.find? (·.contains point tolerance)).map (·.id)

end Target

end LabelledMap
