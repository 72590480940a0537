import LabelledMap.Feature.Hit
import LabelledMap.Label.Draw
import LabelledMap.Overlay.Placement
import LabelledMap.Pointer.Hover
import LabelledMap.Pointer.Throttle

/-!
# The renderer

What the label overlay knows, apart from the page it is shown on. A *pass* draws the labels of one
frame: `Renderer.beginPass` forgets the labels, targets and counts of the pass before, the context
is moved to the frame's place, and then each feature is first taken as a target of the pointer
(`Renderer.addTarget`) and then labelled (`Renderer.attemptLabel`). A label that cannot be drawn is
counted and does not end the pass; only a context that cannot be moved does. `Renderer.drawPass` is
a whole pass.

Between passes the renderer says where the overlay goes while the map moves (`Renderer.placement?`)
and what the pointer does to the features (`Renderer.movePointer`, `Renderer.losePointer`,
`Renderer.click`).
-/

set_option autoImplicit false

namespace LabelledMap

/-- How many features a pass has seen, and what became of their labels. -/
structure PassCounts where
  features : Nat := 0
  drawn : Nat := 0
  collided : Nat := 0
  /-- Features without a text or without an anchor. -/
  unlabelled : Nat := 0
  failed : Nat := 0
deriving DecidableEq

/-- The counts with one more outcome. -/
def PassCounts.add {α : Type} (counts : PassCounts) : LabelOutcome α → PassCounts
  | .drawn _ => { counts with drawn := counts.drawn + 1 }
  | .collided _ => { counts with collided := counts.collided + 1 }
  | .noText | .noAnchor => { counts with unlabelled := counts.unlabelled + 1 }
  | .failed _ => { counts with failed := counts.failed + 1 }

/-- The state of the label overlay. -/
structure Renderer (α : Type) where
  options : LabelOptions α
  devicePixelRatio : α
  projection : Projection α
  throttle : Throttle α
  /-- The labels placed in the current pass. -/
  placed : PlacedLabels α := ∅
  drawnView : Option (DrawnView α) := none
  layout : Option (Layout α) := none
  /-- The shapes of the current pass that the pointer can touch, in drawing order. -/
  targets : List (Target α) := []
  hovered : Option FeatureId := none
  /-- Whether the map is being dragged or zoomed, so that the pointer is not looked at. -/
  busy : Bool := false
  counts : PassCounts := {}

/-- What a pass did: the calls made, the outcome of each feature's label or the reason why the pass
could not begin, and the renderer after it. -/
structure PassReport (α : Type) where
  calls : List (CanvasCall α)
  result : Except (CanvasFault α) (List (LabelOutcome α))
  renderer : Renderer α

namespace Renderer

variable {α : Type}

/-- The least time between two samples of the pointer in milliseconds, where nothing else is said.
-/
def standardInterval [Scalar α] : α := 32

/-- A renderer that has drawn nothing yet. -/
def new [Analytic α] (options : LabelOptions α) (interval : α) : Renderer α where
  options := options
  devicePixelRatio := 1
  projection := .mercator
  throttle := { interval }

/-- The renderer with other options, if they can be drawn with. -/
def setOptions [Scalar α] (renderer : Renderer α) (options : LabelOptions α) :
    Except (OptionFault α) (Renderer α) := do
  options.validate
  return { renderer with options }

/-- Where the overlay goes while the map moves to a centre and zoom level, once there has been a
pass. -/
def placement? [Analytic α] (renderer : Renderer α) (center : LatLng α) (zoom : α) :
    Option (Placement α) :=
  renderer.drawnView.map fun drawn ↦
    .following renderer.projection drawn renderer.options.padding center zoom

/-! ### Passes -/

section Passes

variable [Scalar α]

/-- The layout of the overlay for a frame. -/
def layoutFor (renderer : Renderer α) (frame : Frame α) : Layout α :=
  .ofFrame frame renderer.devicePixelRatio

/-- The renderer at the beginning of the pass for a frame. -/
def beginPass (renderer : Renderer α) (frame : Frame α) : Renderer α :=
  { renderer with
    placed := ∅
    targets := []
    counts := {}
    layout := some (renderer.layoutFor frame)
    drawnView := some (.ofFrame frame) }

/-- The calls that make layer coordinates land on their place in a context that was reset. -/
def contextSetup (layout : Layout α) : List (CanvasCall α) :=
  if layout.pixelRatio != 1 then
    [.scale layout.pixelRatio layout.pixelRatio, .translate layout.origin]
  else [.translate layout.origin]

omit [Scalar α] in
/-- A feature is counted, and becomes a target of the pointer if it is interactive. -/
def addTarget (renderer : Renderer α) (feature : Feature α) : Renderer α :=
  { renderer with
    targets := renderer.targets ++ (Target.ofFeature? feature).toList
    counts := { renderer.counts with features := renderer.counts.features + 1 } }

/-- A feature's label is attempted. -/
def attemptLabel (renderer : Renderer α) (canvas : Canvas α) (feature : Feature α) :
    LabelAttempt α :=
  drawLabel canvas renderer.options renderer.placed feature

omit [Scalar α] in
/-- The renderer after an attempt to draw a label. -/
def afterAttempt (renderer : Renderer α) (attempt : LabelAttempt α) : Renderer α :=
  { renderer with
    placed := attempt.placed
    counts := renderer.counts.add attempt.outcome }

/-- The calls, outcomes and renderer after features have been drawn in order. -/
def drawFeatures (renderer : Renderer α) (canvas : Canvas α) :
    List (Feature α) → List (CanvasCall α) × List (LabelOutcome α) × Renderer α
  | [] => ([], [], renderer)
  | feature :: rest =>
    let targeted := renderer.addTarget feature
    let attempt := targeted.attemptLabel canvas feature
    let (calls, outcomes, final) :=
      drawFeatures (targeted.afterAttempt attempt) (canvas.after attempt.calls) rest
    (attempt.calls ++ calls, attempt.outcome :: outcomes, final)

/-- Prepares a context for a layout and draws features on it. -/
def drawLabels (renderer : Renderer α) (canvas : Canvas α) (layout : Layout α)
    (features : List (Feature α)) : PassReport α :=
  match canvas.perform (contextSetup layout) with
  | (made, some refusal) => ⟨made, .error (.refused refusal), renderer⟩
  | (made, none) =>
    let (calls, outcomes, final) := renderer.drawFeatures (canvas.after made) features
    ⟨made ++ calls, .ok outcomes, final⟩

/-- A whole pass on a context that was reset. -/
def drawPass (renderer : Renderer α) (canvas : Canvas α) (frame : Frame α)
    (features : List (Feature α)) : PassReport α :=
  (renderer.beginPass frame).drawLabels canvas (renderer.layoutFor frame) features

end Passes

/-! ### The pointer -/

section Pointer

variable [Scalar α]

/-- The feature that the pointer touches at a point. -/
def touched? (renderer : Renderer α) (point : Point α) : Option FeatureId :=
  Target.topmost? renderer.targets point renderer.options.clickTolerance

/-- The pointer is at a point at a time. Nothing is looked at while the map moves, nor what the
throttle drops. -/
def movePointer (renderer : Renderer α) (point : Point α) (now : α) :
    List Action × Renderer α :=
  if renderer.busy then ([], renderer)
  else if renderer.throttle.admits now then
    let next := renderer.touched? point
    (hoverActions renderer.hovered next,
      { renderer with throttle := renderer.throttle.observe now, hovered := next })
  else ([], renderer)

omit [Scalar α] in
/-- The pointer has left the overlay. -/
def losePointer (renderer : Renderer α) : List Action × Renderer α :=
  (hoverActions renderer.hovered none,
    { renderer with throttle := renderer.throttle.reset, hovered := none })

/-- What a click at a point does: the feature on top is told, if there is one. -/
def click (renderer : Renderer α) (point : Point α) : List Action :=
  (renderer.touched? point).toList.map .clicked

end Pointer

end Renderer

end LabelledMap
