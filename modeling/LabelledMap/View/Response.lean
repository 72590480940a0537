import LabelledMap.Json.Printer
import LabelledMap.View.Options
import LabelledMap.View.Place

/-!
# Responses

The places of an area come in a response, together with the languages and icons they refer to.
`Response.ofText` reads the JSON form of a response and `Response.toText` writes it.

A place's location is a GeoJSON point: an object whose field `type` names the kind of geometry,
wherever it stands, or an array that begins with that name. The rest of the geometry is kept as it
is until its kind is known, so it has to be well formed throughout, and nested no deeper than a
document may be.
-/

set_option autoImplicit false

namespace LabelledMap

/-- Places with the icons and languages they refer to. -/
structure Response (α : Type) where
  places : List (Place α) := []
  /-- The images of icons, by name. -/
  icons : Dictionary String := ∅
  languages : List Language := []
deriving DecidableEq

open Json

namespace Json

/-- How many arrays and objects may lie within each other in a value that is kept. -/
def nestingLimit : Nat := 127

section Keeping

variable (α : Type) [Scalar α]

mutual

/-- Checks a value that is kept: numbers and strings have to have a value, and `room` is how much
deeper it may be nested. -/
def Node.keep (room : Nat) : Node → Except Fault Unit
  | .null | .boolean _ => .ok ()
  | .number literal => (literal.value : Except Fault α).map fun _ ↦ ()
  | .string quote => quote.text.map fun _ ↦ ()
  | .array items => if room = 0 then .error .malformed else items.keep (room - 1)
  | .object members => if room = 0 then .error .malformed else members.keep (room - 1)
  | .broken reason => .error reason.fault

/-- Checks items that are kept. -/
def Items.keep (room : Nat) : Items → Except Fault Unit
  | .done stop => endFault stop
  | .item first rest => (first.keep room).bind fun _ ↦ rest.keep room

/-- Checks members that are kept. -/
def Members.keep (room : Nat) : Members → Except Fault Unit
  | .done stop => endFault stop
  | .member key value rest =>
    key.text.bind fun _ ↦ (value.keep room).bind fun _ ↦ rest.keep room

end

end Keeping

/-- The number of items. -/
def Items.length : Items → Nat
  | .done _ => 0
  | .item _ rest => rest.length + 1

end Json

section Geometry

variable (α : Type) [Scalar α] [Legible α]

/-- The name of the one kind of geometry that a place can have. -/
def pointKind : String := "Point"

/-- The kind of a geometry. -/
def readKind (node : Node) : Except Fault Unit :=
  match node with
  | .string quote =>
    quote.text.bind fun kind ↦
      if kind = pointKind then .ok () else .error (.unknownVariant kind pointKind)
  | node => .error (node.mismatch α .variant)

/-- How deep a geometry's parts may be nested: the response, its list of places, the place and the
geometry itself lie around them. -/
def geometryRoom : Nat := nestingLimit - 4

/-- The coordinates of a point, longitude first. -/
def readCoordinates (node : Node) : Except Fault (LatLng α) :=
  match node with
  | .array (.done _) => .error (.wrongLength 0 (.tuple 2))
  | .array (.item first rest) =>
    ((Codec.float α).read first).bind fun lng ↦
      match rest with
      | .done _ => .error (.wrongLength 1 (.tuple 2))
      | .item second rest =>
        ((Codec.float α).read second).bind fun lat ↦
          if rest.length = 0 then .ok ⟨lat, lng⟩
          else .error (.wrongLength (rest.length + 2) (.used 2))
  | node => .error (node.mismatch α (.tuple 2))

/-- Goes through the members of a geometry: the kind is read and the others are kept. -/
def readGeometryMembers (hasKind : Bool) (kept : List (String × Node)) :
    Members → Except Fault (List (String × Node))
  | .done stop =>
    (endFault stop).bind fun _ ↦
      if hasKind then .ok kept else .error (.missingField "type")
  | .member key node rest =>
    key.text.bind fun name ↦
      if name = "type" then
        if hasKind then .error (.duplicateField "type")
        else (readKind α node).bind fun _ ↦ readGeometryMembers true kept rest
      else
        (node.keep α geometryRoom).bind fun _ ↦
          readGeometryMembers hasKind (kept ++ [(name, node)]) rest

/-- Finds the coordinates among the members that were kept. -/
def findCoordinates (found : Option (LatLng α)) :
    List (String × Node) → Except Fault (LatLng α)
  | [] =>
    match found with
    | some location => .ok location
    | none => .error (.missingField "coordinates")
  | (name, node) :: rest =>
    if name = "coordinates" then
      match found with
      | some _ => .error (.duplicateField "coordinates")
      | none => (readCoordinates α node).bind fun location ↦ findCoordinates (some location) rest
    else findCoordinates found rest

/-- The coordinates after the kind, in a geometry that is an array. -/
def readListedCoordinates : Items → Except Fault (LatLng α)
  | .done _ => .error (.wrongLength 0 (.variantFields "PointGeometry::Point" 1))
  | .item first rest =>
    (readCoordinates α first).bind fun location ↦
      if rest.length = 0 then .ok location
      else .error (.wrongLength (rest.length + 1) (.used 1))

/-- The location that a geometry gives. -/
def readGeometry : Node → Except Fault (LatLng α)
  | .object members =>
    (readGeometryMembers α false [] members).bind (findCoordinates α none)
  | .array (.done stop) => (endFault stop).bind fun _ ↦ .error (.missingField "type")
  | .array (.item first rest) =>
    (readKind α first).bind fun _ ↦
      (rest.keep α geometryRoom).bind fun _ ↦ readListedCoordinates α rest
  | node => .error (node.mismatch α (.tagged "PointGeometry"))

/-- The geometry of a location. -/
def writeGeometry (location : LatLng α) : Node :=
  .object (.ofList [
    (.ofString "type", .string (.ofString pointKind)),
    (.ofString "coordinates", .array (.ofList [
      (Codec.float α).write location.lng, (Codec.float α).write location.lat]))])

/-- Locations in documents. -/
def geometryCodec : Codec (LatLng α) where
  read := readGeometry α
  write := writeGeometry α

end Geometry

section Codecs

variable (α : Type) [Scalar α] [Legible α]

/-- A language, with all fields. -/
def languageRecord : Record Language where
  name := "Language"
  fields := [
    .of "id" true (Codec.uint64 α) (·.id) (fun id language ↦ { language with id }),
    .of "name" true (Codec.string α) (·.name) (fun name language ↦ { language with name }),
    .of "colour" true (Codec.string α) (·.colour)
      (fun colour language ↦ { language with colour })]

/-- Languages in documents. -/
def languageCodec : Codec Language := (languageRecord α).codec α ⟨0, "", ""⟩

/-- A name, with its language. -/
def placeNameRecord : Record PlaceName where
  name := "PlaceName"
  fields := [
    .of "name" true (Codec.string α) (·.name) (fun name placeName ↦ { placeName with name }),
    .of "lang" true (languageCodec α) (·.language)
      (fun language placeName ↦ { placeName with language })]

/-- Names in documents. -/
def placeNameCodec : Codec PlaceName := (placeNameRecord α).codec α ⟨"", ⟨0, "", ""⟩⟩

/-- What a place has besides its location; only the identifier is required. -/
def propertiesRecord : Record (Place α) where
  name := "PlaceProperties"
  fields := [
    .of "id" true (Codec.uint64 α) (·.id) (fun id place ↦ { place with id }),
    .of "names" false (Codec.list α (placeNameCodec α)) (·.names)
      (fun names place ↦ { place with names }),
    .of "icon" false (Codec.optional (Codec.string α)) (·.icon)
      (fun icon place ↦ { place with icon }),
    .of "category" false (Codec.string α) (·.category)
      (fun category place ↦ { place with category })]

/-- A place, with its geometry and its properties. -/
def placeRecord : Record (Place α) where
  name := "PlaceFeature"
  fields := [
    .of "geometry" true (geometryCodec α) (·.location)
      (fun location place ↦ { place with location }),
    { name := "properties"
      required := true
      read := fun node place ↦ (propertiesRecord α).readInto α place node
      write := (propertiesRecord α).write }]

/-- Places in documents. -/
def placeCodec : Codec (Place α) :=
  (placeRecord α).codec α { id := 0, location := ⟨0, 0⟩ }

/-- What a response's places refer to; every field is optional. -/
def metadataRecord : Record (Response α) where
  name := "ViewportMetadata"
  fields := [
    .of "icons" false (Codec.dictionary α (Codec.string α)) (·.icons)
      (fun icons response ↦ { response with icons }),
    .of "langs" false (Codec.list α (languageCodec α)) (·.languages)
      (fun languages response ↦ { response with languages })]

/-- A response; every field is optional. -/
def responseRecord : Record (Response α) where
  name := "ViewportResponse"
  fields := [
    .of "features" false (Codec.list α (placeCodec α)) (·.places)
      (fun places response ↦ { response with places }),
    { name := "metadata"
      required := false
      read := fun node response ↦ (metadataRecord α).readInto α response node
      write := (metadataRecord α).write }]

/-- Responses in documents. -/
def responseCodec : Codec (Response α) := (responseRecord α).codec α {}

end Codecs

namespace Response

variable {α : Type} [Scalar α] [Legible α]

/-- The response of a text. -/
def ofText (text : String) : Except Fault (Response α) := (responseCodec α).ofText text

/-- The text of a response. -/
def toText (response : Response α) : String := (responseCodec α).toText response

/-- What is reported of a response that cannot be read; malformed documents are not described. -/
def faultMessage? (fault : Fault) : Option String :=
  fault.message?.map ("invalid viewport payload: " ++ ·)

end Response

end LabelledMap
