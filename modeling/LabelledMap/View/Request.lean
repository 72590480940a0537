import LabelledMap.Decimal.Numeral
import LabelledMap.Globe.Coordinate
import LabelledMap.View.Place

/-!
# Requests

The addresses that places and their details are asked for under.
-/

set_option autoImplicit false

namespace LabelledMap

/-- The number of decimal places of a coordinate in an address. -/
def addressPlaces : Nat := 10

/-- A coordinate in an address, longitude first. -/
def addressCoordinate {α : Type} [Legible α] (place : LatLng α) : String :=
  Legible.fixed addressPlaces place.lng ++ "," ++ Legible.fixed addressPlaces place.lat

/-- The address of the places in an area. -/
def placesAddress {α : Type} [Legible α] (area : Area α) : String :=
  "/data/" ++ addressCoordinate area.southWest ++ "/" ++ addressCoordinate area.northEast ++ "/"

/-- The address of a place's details. -/
def detailAddress (id : PlaceId) : String := "/info/" ++ toString id.toNat ++ "/"

end LabelledMap
