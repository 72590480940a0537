import LabelledMap.Globe.Coordinate

/-!
# Places

Places on the map with their recorded names. Each name belongs to a language, and the first name of
a place is the one that is shown; a place is drawn in the colour of that name's language.
-/

set_option autoImplicit false

namespace LabelledMap

/-- Names a place. -/
abbrev PlaceId := UInt64

/-- Names a language. -/
abbrev LanguageId := UInt64

/-- A language in which names are recorded. -/
structure Language where
  id : LanguageId
  name : String
  /-- The colour that stands for the language on the map. -/
  colour : String
deriving DecidableEq

/-- A name of a place. -/
structure PlaceName where
  name : String
  language : Language
deriving DecidableEq

/-- The category of places that say nothing of it. -/
def standardCategory : String := "unknown"

/-- A place. -/
structure Place (α : Type) where
  id : PlaceId
  location : LatLng α
  /-- The names, the one to be shown first. -/
  names : List PlaceName := []
  /-- The name of the icon, if the place has one. -/
  icon : Option String := none
  category : String := standardCategory
deriving DecidableEq

namespace Place

variable {α : Type}

/-- The colour of places without a name. -/
def unnamedColour : String := "#ccc"

/-- The text of the label; a place without names has none. -/
def label (place : Place α) : String := (place.names.head?.map (·.name)).getD ""

/-- The language of the name that is shown. -/
def language? (place : Place α) : Option Language := place.names.head?.map (·.language)

/-- The colour that the place is drawn in. -/
def colour (place : Place α) : String := (place.language?.map (·.colour)).getD unnamedColour

end Place

end LabelledMap
