/-!
# The loading indicator

A sign that shows whether places are being loaded, and a title for it.
-/

set_option autoImplicit false

namespace LabelledMap

/-- How loading is going. -/
inductive LoadState where
  | loading
  | okay
  | error
deriving DecidableEq

/-- The class of the sign that shows a state. -/
def LoadState.iconClass : LoadState → String
  | loading => "icon-loading-anim"
  | okay => "icon-check2"
  | error => "icon-exclamation-triangle"

/-- A state with a title. -/
structure LoadingIndicator where
  state : LoadState := .loading
  title : Option String := none
deriving DecidableEq

/-- The indicator of a state; an empty title is none. -/
def LoadingIndicator.of (state : LoadState) (title : Option String) : LoadingIndicator where
  state := state
  title := title.filter (· ≠ "")

end LabelledMap
