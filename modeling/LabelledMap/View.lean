import LabelledMap.Renderer
import LabelledMap.View.Detail
import LabelledMap.View.Filter
import LabelledMap.View.Loading
import LabelledMap.View.Options
import LabelledMap.View.Request
import LabelledMap.View.Response

/-!
# Map views

What one view of the map knows of its places. Places arrive in responses that overlap, so each place
is kept as it was first received, in the order of arrival, and so are languages and icons. For every
language and every category of a place the filter panel has a row; `MapView.features` are the
features of the places that the filters let through.
-/

set_option autoImplicit false

namespace LabelledMap

/-- An image that marks places. -/
structure Icon where
  url : String
  /-- Width and height in pixels. -/
  size : Nat × Nat := (32, 32)
  /-- The pixel that lies on the place. -/
  anchor : Nat × Nat := (16, 31)
deriving DecidableEq

/-- A marker that has to be added to the map. -/
structure Marker (α : Type) where
  place : PlaceId
  location : LatLng α
  /-- The name of the icon, if the place has one. -/
  icon : Option String

/-- How many places a response held, how many of them were new, and how many there are now. -/
structure IngestSummary where
  received : Nat
  new : Nat
  total : Nat
deriving DecidableEq

/-- The state of a map view. -/
structure MapView (α : Type) where
  options : MapOptions α
  /-- The places under their identifiers; of entries with the same identifier the first counts. -/
  cache : List (PlaceId × Place α) := []
  /-- The identifiers of the places in the order of arrival, which is also the order of labels. -/
  order : List PlaceId := []
  languages : List Language := []
  icons : List (String × Icon) := []
  /-- The markers of places that have arrived since markers were last taken. -/
  markers : List (Marker α) := []
  /-- Whether there has been a response. -/
  loaded : Bool := false
  filters : FilterPanel
  detail : DetailPanel := .closed
  loading : LoadingIndicator := {}

namespace MapView

/-- The filter section with a row for each language. -/
def languageSection : String := "lang"

/-- The filter section with a row for each category. -/
def categorySection : String := "category"

/-- The row of places without a name, in the section of languages. -/
def unnamedRow : String := "unknown"

variable {α : Type}

/-- A view without places. -/
def new (options : MapOptions α) : MapView α where
  options := options
  filters := FilterPanel.addSection (.addSection {} languageSection "Languages") categorySection
    "Place types"

/-! ### Receiving places -/

/-- The place with an identifier. -/
def place? (view : MapView α) (id : PlaceId) : Option (Place α) := view.cache.lookup id

/-- The places in the order of arrival. -/
def places (view : MapView α) : List (Place α) := view.order.filterMap view.place?

/-- The number of places. -/
def count (view : MapView α) : Nat := view.order.length

/-- The language with an identifier. -/
def language? (view : MapView α) (id : LanguageId) : Option Language :=
  view.languages.find? (·.id == id)

/-- The icon with a name. -/
def icon? (view : MapView α) (name : String) : Option Icon := view.icons.lookup name

/-- The filter row of a language. -/
def languageRow (id : LanguageId) : String := toString id.toNat

/-- The view with an icon, unless there is one of that name. -/
def addIcon (view : MapView α) (name url : String) : MapView α :=
  if (view.icon? name).isSome then view
  else { view with icons := view.icons ++ [(name, { url })] }

/-- The view with a language and its filter row, unless it is known. -/
def addLanguage (view : MapView α) (language : Language) : Except UnknownSection (MapView α) :=
  if (view.language? language.id).isSome then .ok view
  else
    (view.filters.addRow languageSection (languageRow language.id) language.name
      (some language.colour)).map fun filters ↦
        { view with filters, languages := view.languages ++ [language] }

/-- The view with a row without colour in a filter section, unless the row exists. -/
def requireRow (view : MapView α) (part row text : String) : Except UnknownSection (MapView α) :=
  if (view.filters.row? part row).isSome then .ok view
  else (view.filters.addRow part row text none).map fun filters ↦ { view with filters }

/-- The view with a filter row for the language of a place's name, or for places without one. -/
def addLanguageOf (view : MapView α) (place : Place α) : Except UnknownSection (MapView α) :=
  match place.language? with
  | some language => view.addLanguage language
  | none => view.requireRow languageSection unnamedRow "Unknown"

/-- The view with a place at the end and a marker to be added for it. -/
def append (view : MapView α) (place : Place α) : MapView α :=
  { view with
    cache := (place.id, place) :: view.cache
    order := view.order ++ [place.id]
    markers := view.markers ++ [⟨place.id, place.location, place.icon⟩] }

/-- The view with a place that it does not know and the filter rows that the place belongs to. -/
def addPlace (view : MapView α) (place : Place α) : Except UnknownSection (MapView α) := do
  let view ← view.addLanguageOf place
  let view ← view.requireRow categorySection place.category place.category
  return view.append place

/-- The view with those of some places that it does not know, and how many they are. -/
def addPlaces (view : MapView α) : List (Place α) → Except UnknownSection (Nat × MapView α)
  | [] => .ok (0, view)
  | place :: rest =>
    if (view.place? place.id).isSome then view.addPlaces rest
    else do
      let next ← view.addPlace place
      let (new, last) ← next.addPlaces rest
      return (new + 1, last)

/-- The view once nothing is being loaded any more. -/
def settle (view : MapView α) : MapView α :=
  { view with loaded := true, loading := .of .okay none }

/-- The view after a response: its icons, its languages and its places in order. -/
def ingest (view : MapView α) (response : Response α) :
    Except UnknownSection (IngestSummary × MapView α) := do
  let withIcons := response.icons.entries.foldl (fun view (name, url) ↦ view.addIcon name url) view
  let withLanguages ← response.languages.foldlM addLanguage withIcons
  let (new, withPlaces) ← withLanguages.addPlaces response.places
  return (⟨response.places.length, new, withPlaces.count⟩, withPlaces.settle)

/-- The view while the places of an area are loaded, and the address to load them from. -/
def request [Legible α] (view : MapView α) (area : Area α) : String × MapView α :=
  (placesAddress area, { view with loading := .of .loading none })

/-- The view after places could not be loaded. -/
def requestFailed (view : MapView α) (message : String) : MapView α :=
  { view with loading := .of .error (some message) }

/-- The markers that have to be added to the map, which are then no longer to be added. -/
def takeMarkers (view : MapView α) : List (Marker α) × MapView α :=
  (view.markers, { view with markers := [] })

/-! ### Showing places -/

/-- The filter row that a place belongs to by its language. -/
def languageRowOf (place : Place α) : String :=
  (place.language?.map (fun language ↦ languageRow language.id)).getD unnamedRow

/-- Whether the filters let a place through. -/
def shows (view : MapView α) (place : Place α) : Bool :=
  view.filters.isEnabled languageSection (languageRowOf place) &&
    view.filters.isEnabled categorySection place.category

/-- The dot that a place is drawn as. -/
def dot [Scalar α] (project : LatLng α → Point α) (place : Place α) : Feature α where
  id := place.id
  shape := .circle (project place.location) 5
  weight := 1
  interactive := false
  label := some place.label
  fillColor := some place.colour

/-- The features to be drawn: a dot for each place that the filters let through. -/
def features [Scalar α] (view : MapView α) (project : LatLng α → Point α) : List (Feature α) :=
  (view.places.filter view.shows).map (dot project)

/-- Whether a filter row is checked once it is turned over, if it exists, and the view after it. -/
def toggle (view : MapView α) (part row : String) : Option Bool × MapView α :=
  let toggled := view.filters.toggle part row
  (toggled.1, { view with filters := toggled.2 })

/-- A renderer with the view's options. -/
def renderer [Analytic α] (view : MapView α) : Renderer α :=
  .new view.options.labels view.options.pointerInterval

/-! ### Details of a place -/

/-- The view with the detail panel opened for a place or closed, and the address to load the details
from. -/
def openDetail (view : MapView α) (id : Option PlaceId) : Option String × MapView α :=
  (id.map detailAddress, { view with detail := .open? id })

/-- Whether the details of a place that have arrived were wanted, and the view after it. -/
def receiveDetail (view : MapView α) (id : PlaceId) (html : String) : Bool × MapView α :=
  let answered := view.detail.receive id html
  (answered.1, { view with detail := answered.2 })

/-- Whether it was of interest that the details of a place could not be had, and the view after
it. -/
def failDetail (view : MapView α) (id : PlaceId) (message : String) : Bool × MapView α :=
  let answered := view.detail.fail id message
  (answered.1, { view with detail := answered.2 })

/-- A click beside all features closes the detail panel. -/
def clickMap (view : MapView α) : MapView α := { view with detail := .closed }

end MapView

end LabelledMap
