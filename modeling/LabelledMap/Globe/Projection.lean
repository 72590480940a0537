import LabelledMap.Globe.Coordinate
import LabelledMap.Plane.Point

/-!
# Projections

A projection carries geographic coordinates to pixels of the whole world drawn at a zoom level,
and back. `Projection.mercator` is the spherical Mercator projection onto a square world: its side
is `tileSize` pixels at zoom zero and doubles with every level, and latitudes nearer to a pole than
`latitudeLimit` are drawn at that limit.
-/

set_option autoImplicit false

namespace LabelledMap

/-- A way to draw the globe at every zoom level. -/
structure Projection (α : Type) where
  project : LatLng α → α → Point α
  unproject : Point α → α → LatLng α

variable {α : Type} [Analytic α]

/-- The side of a square tile in pixels. -/
def tileSize : α := 256

/-- The latitude of the world's upper edge in the Mercator projection. -/
def latitudeLimit : α := 85.0511287798

/-- The side of the whole world in pixels. -/
def worldSize (zoom : α) : α := tileSize * Analytic.exp2 zoom

/-- How much longer lengths become when the zoom level changes. -/
def zoomScale (target drawn : α) : α := Analytic.exp2 (target - drawn)

namespace Projection

/-- The spherical Mercator projection. -/
def mercator : Projection α where
  project place zoom :=
    let world := worldSize zoom
    let lat := Scalar.clamp place.lat (-latitudeLimit) latitudeLimit
    let sine := Analytic.sin (Analytic.radians lat)
    { x := (place.lng / 360 + 0.5) * world
      y := (0.5 - Analytic.ln ((1 + sine) / (1 - sine)) / (4 * Analytic.pi)) * world }
  unproject point zoom :=
    let world := worldSize zoom
    let height := (0.5 - point.y / world) * 2 * Analytic.pi
    { lat := Analytic.degrees (2 * Analytic.arctan (Analytic.exp height) - Analytic.pi / 2)
      lng := (point.x / world - 0.5) * 360 }

end Projection

end LabelledMap
