import LabelledMap.Globe.Coordinate
import LabelledMap.Json.Printer
import LabelledMap.Label.Options

/-!
# Map options

The options of a map view, and the JSON form of these and of label options. In a document every
option may be missing and then has its standard value. Label options inside map options start from
the standard label options, not from those that a map has where it says nothing of labels.
-/

set_option autoImplicit false

namespace LabelledMap

/-- The options of a map view. -/
structure MapOptions (α : Type) where
  center : LatLng α
  zoom : α
  /-- The area that the view stays in. -/
  maxBounds : Area α
  /-- The least time between two samples of the pointer, in milliseconds. -/
  pointerInterval : α
  labels : LabelOptions α
deriving DecidableEq

/-- Why options in a document cannot be used. -/
inductive OptionsFault (α : Type) where
  | document (fault : Json.Fault)
  | option (fault : OptionFault α)

open Json

variable {α : Type} [Scalar α]

namespace MapOptions

/-- The options that hold where nothing else is said. -/
def standard : MapOptions α where
  center := ⟨-22.68, 118.35⟩
  zoom := 7
  maxBounds := ⟨⟨-54.1, 83.2⟩, ⟨9.3, 163.9⟩⟩
  pointerInterval := 32
  labels := { LabelOptions.standard with offset := ⟨10, 5⟩ }

/-- Accepts options that a map can be shown with. -/
def validate (options : MapOptions α) : Except (OptionFault α) Unit := do
  unless Scalar.isFinite options.zoom do throw (.infiniteZoom options.zoom)
  requireNonNegative "pointer_throttle_ms" options.pointerInterval
  unless options.maxBounds.contains options.center do throw .centerOutside
  options.labels.validate

end MapOptions

section Codecs

variable (α) [Legible α]

/-- An offset, with both components. -/
def offsetRecord : Record (Point α) where
  name := "LabelOffset"
  fields := [
    .of "x" true (Codec.float α) (·.x) (fun x offset ↦ { offset with x }),
    .of "y" true (Codec.float α) (·.y) (fun y offset ↦ { offset with y })]

/-- A coordinate, with both components. -/
def coordinateRecord : Record (LatLng α) where
  name := "LatLng"
  fields := [
    .of "lat" true (Codec.float α) (·.lat) (fun lat place ↦ { place with lat }),
    .of "lng" true (Codec.float α) (·.lng) (fun lng place ↦ { place with lng })]

/-- Coordinates in documents. -/
def coordinateCodec : Codec (LatLng α) := (coordinateRecord α).codec α ⟨0, 0⟩

/-- An area, with both corners. -/
def areaRecord : Record (Area α) where
  name := "LatLngBounds"
  fields := [
    .of "south_west" true (coordinateCodec α) (·.southWest)
      (fun southWest area ↦ { area with southWest }),
    .of "north_east" true (coordinateCodec α) (·.northEast)
      (fun northEast area ↦ { area with northEast })]

/-- Label options; every field is optional. -/
def labelOptionsRecord : Record (LabelOptions α) where
  name := "LabelOptions"
  fields := [
    .of "collision" false (Codec.boolean α) (·.collision)
      (fun collision options ↦ { options with collision }),
    .of "text_border_weight" false (Codec.float α) (·.textBorderWeight)
      (fun textBorderWeight options ↦ { options with textBorderWeight }),
    .of "text_border_color" false (Codec.string α) (·.textBorderColor)
      (fun textBorderColor options ↦ { options with textBorderColor }),
    .of "text_weight" false (Codec.float α) (·.textWeight)
      (fun textWeight options ↦ { options with textWeight }),
    .of "text_color" false (Codec.string α) (·.textColor)
      (fun textColor options ↦ { options with textColor }),
    .of "font" false (Codec.string α) (·.font) (fun font options ↦ { options with font }),
    .of "z_index" false (Codec.int32 α) (·.zIndex) (fun zIndex options ↦ { options with zIndex }),
    .of "offset" false ((offsetRecord α).codec α ⟨0, 0⟩) (·.offset)
      (fun offset options ↦ { options with offset }),
    .of "padding" false (Codec.float α) (·.padding)
      (fun padding options ↦ { options with padding }),
    .of "click_tolerance" false (Codec.float α) (·.clickTolerance)
      (fun clickTolerance options ↦ { options with clickTolerance })]

/-- Label options in documents. -/
def labelOptionsCodec : Codec (LabelOptions α) := (labelOptionsRecord α).codec α .standard

/-- Map options; every field is optional. -/
def mapOptionsRecord : Record (MapOptions α) where
  name := "MapOptions"
  fields := [
    .of "center" false (coordinateCodec α) (·.center)
      (fun center options ↦ { options with center }),
    .of "zoom" false (Codec.float α) (·.zoom) (fun zoom options ↦ { options with zoom }),
    .of "max_bounds" false ((areaRecord α).codec α ⟨⟨0, 0⟩, ⟨0, 0⟩⟩) (·.maxBounds)
      (fun maxBounds options ↦ { options with maxBounds }),
    .of "pointer_throttle_ms" false (Codec.float α) (·.pointerInterval)
      (fun pointerInterval options ↦ { options with pointerInterval }),
    .of "labels" false (labelOptionsCodec α) (·.labels)
      (fun labels options ↦ { options with labels })]

/-- Map options in documents. -/
def mapOptionsCodec : Codec (MapOptions α) := (mapOptionsRecord α).codec α .standard

end Codecs

variable [Legible α]

/-- The label options of a text, if labels can be drawn with them. -/
def LabelOptions.ofText (text : String) : Except (OptionsFault α) (LabelOptions α) :=
  ((labelOptionsCodec α).ofText text).mapError .document |>.bind fun options ↦
    options.validate.mapError .option |>.map fun _ ↦ options

/-- The text of label options. -/
def LabelOptions.toText (options : LabelOptions α) : String := (labelOptionsCodec α).toText options

/-- The map options of a text, if a map can be shown with them. -/
def MapOptions.ofText (text : String) : Except (OptionsFault α) (MapOptions α) :=
  ((mapOptionsCodec α).ofText text).mapError .document |>.bind fun options ↦
    options.validate.mapError .option |>.map fun _ ↦ options

/-- The text of map options. -/
def MapOptions.toText (options : MapOptions α) : String := (mapOptionsCodec α).toText options

/-- What is reported of options that cannot be used; malformed documents are not described. -/
def OptionsFault.message? : OptionsFault α → Option String
  | document fault => fault.message?.map ("invalid options JSON: " ++ ·)
  | option fault => some fault.message

end LabelledMap
