import LabelledMap.Feature

/-!
# Anchors

The point that a label hangs from. A circle's label hangs from its centre. The label of a path
hangs from the point halfway along its first part, so that it follows what is seen at the current
zoom level; a part shorter than half a pixel is as good as its first vertex, and a path without
vertices has no anchor. `halfwayPointBy?` leaves open how far two vertices are apart, and
`halfwayPoint?` takes their distance in the plane.
-/

set_option autoImplicit false

namespace LabelledMap

variable {α : Type}

/-- The segments between consecutive vertices. -/
def segments (points : List (Point α)) : List (Point α × Point α) := points.zip points.tail

variable [Scalar α]

section Distance

variable (distance : Point α → Point α → α)

/-- The length of a path from its first vertex to its last. -/
def pathLength (points : List (Point α)) : α :=
  (segments points).foldl (fun total (start, stop) ↦ total + distance start stop) 0

/-- The point where a walk along segments has first gone further than `goal`, interpolated within
that segment; `walked` is the way behind. -/
def pointBeyond? (goal walked : α) : List (Point α × Point α) → Option (Point α)
  | [] => none
  | (start, stop) :: rest =>
    let step := distance start stop
    let reached := walked + step
    if goal < reached then
      let ratio := (reached - goal) / step
      some ⟨stop.x - ratio * (stop.x - start.x), stop.y - ratio * (stop.y - start.y)⟩
    else pointBeyond? goal reached rest

/-- The point halfway along a path, `none` for a path without vertices. -/
def halfwayPointBy? (points : List (Point α)) : Option (Point α) :=
  match points with
  | [] => none
  | first :: rest =>
    let total := pathLength distance points
    if Scalar.round total == 0 then some first
    else some ((pointBeyond? distance (total / 2) 0 (segments points)).getD (rest.getLastD first))

end Distance

/-- The point halfway along a path in the plane. -/
def halfwayPoint? (points : List (Point α)) : Option (Point α) :=
  halfwayPointBy? Point.distanceTo points

/-- The point that the label of a shape hangs from. -/
def Shape.anchor? : Shape α → Option (Point α)
  | .circle center _ => some center
  | .path parts _ => parts.head?.bind halfwayPoint?

end LabelledMap
