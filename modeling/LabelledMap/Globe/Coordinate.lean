import LabelledMap.Scalar

/-!
# Coordinates on the globe

Geographic coordinates in degrees and the areas between two parallels and two meridians. An area
is given by its south west and north east corners, and its border belongs to it.
-/

set_option autoImplicit false

namespace LabelledMap

/-- A geographic coordinate in degrees. -/
@[ext]
structure LatLng (α : Type) where
  lat : α
  lng : α
deriving DecidableEq

/-- The area between two parallels and two meridians. -/
@[ext]
structure Area (α : Type) where
  southWest : LatLng α
  northEast : LatLng α
deriving DecidableEq

namespace Area

variable {α : Type} [Scalar α]

/-- The area with two given opposite corners. -/
def ofCorners (corner opposite : LatLng α) : Area α where
  southWest := ⟨Scalar.lesser corner.lat opposite.lat, Scalar.lesser corner.lng opposite.lng⟩
  northEast := ⟨Scalar.greater corner.lat opposite.lat, Scalar.greater corner.lng opposite.lng⟩

/-- Whether a coordinate lies in the area or on its border. -/
def contains (area : Area α) (place : LatLng α) : Bool :=
  area.southWest.lat ≤ place.lat && place.lat ≤ area.northEast.lat &&
    area.southWest.lng ≤ place.lng && place.lng ≤ area.northEast.lng

/-- The coordinate halfway between the corners. -/
def center (area : Area α) : LatLng α where
  lat := (area.southWest.lat + area.northEast.lat) * 0.5
  lng := (area.southWest.lng + area.northEast.lng) * 0.5

end Area

end LabelledMap
