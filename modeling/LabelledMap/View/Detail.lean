import LabelledMap.View.Place

/-!
# Details

The panel with the details of one place. Details arrive some time after they were asked for, and by
then another place may have been chosen; so what arrives names its place and is dropped unless the
panel is open for that place.
-/

set_option autoImplicit false

namespace LabelledMap

/-- The state of the detail panel. -/
inductive DetailPanel where
  | closed
  | loading (id : PlaceId)
  | loaded (id : PlaceId) (html : String)
  | failed (id : PlaceId) (message : String)
deriving DecidableEq

/-- What is shown until details have arrived. -/
def loadingText : String := "Loading..."

namespace DetailPanel

/-- The panel opened for a place, or closed. -/
def open? : Option PlaceId → DetailPanel
  | some id => loading id
  | none => closed

/-- The place that the panel is open for. -/
def current? : DetailPanel → Option PlaceId
  | closed => none
  | loading id | loaded id _ | failed id _ => some id

/-- Whether the panel is open. -/
def isOpen (panel : DetailPanel) : Bool := panel.current?.isSome

/-- Whether what arrives for a place is wanted. -/
def accepts (panel : DetailPanel) (id : PlaceId) : Bool := panel.current? == some id

/-- Whether the details of a place that have arrived were wanted, and the panel after it. -/
def receive (panel : DetailPanel) (id : PlaceId) (html : String) : Bool × DetailPanel :=
  if panel.accepts id then (true, loaded id html) else (false, panel)

/-- Whether it was of interest that the details of a place could not be had, and the panel after
it. -/
def fail (panel : DetailPanel) (id : PlaceId) (message : String) : Bool × DetailPanel :=
  if panel.accepts id then (true, failed id message) else (false, panel)

/-- What an open panel shows. -/
def content? : DetailPanel → Option String
  | closed => none
  | loading _ => some loadingText
  | loaded _ html => some html
  | failed _ message => some ("Error retrieving info: " ++ message)

end DetailPanel

end LabelledMap
