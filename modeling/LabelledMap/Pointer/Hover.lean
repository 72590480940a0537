import LabelledMap.Feature

/-!
# Hovering

At most one feature is hovered. When another one, or none, is found under the pointer, the host of
the map is told so by actions: the feature left behind is told first, then the pointer's cursor
changes, then the feature entered is told. As long as nothing changes there are no actions.
-/

set_option autoImplicit false

namespace LabelledMap

/-- The pointer's cursor over the overlay. -/
inductive Cursor where
  | normal
  /-- Over a feature that reacts to the pointer. -/
  | interactive
deriving DecidableEq

/-- What the host of the map is told. -/
inductive Action where
  | entered (id : FeatureId)
  | left (id : FeatureId)
  | clicked (id : FeatureId)
  | cursor (cursor : Cursor)
deriving DecidableEq

/-- The actions when the hovered feature changes from `previous` to `next`. -/
def hoverActions (previous next : Option FeatureId) : List Action :=
  if next = previous then []
  else
    let leaving := previous.toList.map .left
    match next with
    | some id => leaving ++ [.cursor .interactive, .entered id]
    | none => leaving ++ [.cursor .normal]

end LabelledMap
