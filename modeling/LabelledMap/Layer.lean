import LabelledMap.Renderer
import LabelledMap.Surface.Browser

/-!
# The label layer

The layer joins a renderer and the element it draws on. It puts what the renderer computes onto the
element: size, position and stacking order at the beginning of a pass, the placement while the map
moves, and a class while the pointer is over a feature that reacts to it. Each operation returns the
calls it made, what came of it and the layer after it; a refused call ends the operation, but the
renderer keeps what it has taken note of until then.
-/

set_option autoImplicit false

namespace LabelledMap

/-- A renderer with an element to draw on. -/
structure Layer (α : Type) where
  renderer : Renderer α

/-- What an operation on a layer did. -/
structure LayerReport (α answer : Type) where
  calls : List (BrowserCall α)
  result : Except (CanvasFault α) answer
  layer : Layer α

namespace Layer

variable {α : Type}

/-- The report of an operation that consists of calls, with its answer if none is refused. -/
def performing {answer : Type} (layer : Layer α) (browser : Browser α)
    (calls : List (BrowserCall α)) (value : answer) : LayerReport α answer :=
  match browser.perform calls with
  | (made, some refusal) => ⟨made, .error (.refused refusal), layer⟩
  | (made, none) => ⟨made, .ok value, layer⟩

/-- A layer on an element, if the element has a context to draw labels in. The layer's renderer
takes over the device pixel ratio of the display. -/
def new? [Scalar α] (browser : Browser α) (renderer : Renderer α) :
    List (BrowserCall α) × Except (CanvasFault α) (Layer α) :=
  match browser.perform [.getContext] with
  | (made, some refusal) => (made, .error (.refused refusal))
  | (made, none) =>
    match browser.context with
    | .absent => (made, .error .noContext)
    | .foreign => (made, .error .foreignContext)
    | .planar => (made, .ok ⟨{ renderer with devicePixelRatio := browser.pixelRatio }⟩)

/-- The calls that prepare the element once. -/
def elementSetup (options : LabelOptions α) : List (BrowserCall α) :=
  [.addClass .zoomAnimated, .style .absolute, .style .transformOrigin,
    .style (.zIndex options.zIndex)]

/-- Prepares the element once. -/
def init (layer : Layer α) (browser : Browser α) : LayerReport α Unit :=
  layer.performing browser (elementSetup layer.renderer.options) ()

/-- Moves the element along with the map, once there has been a pass. -/
def follow [Analytic α] (layer : Layer α) (browser : Browser α) (center : LatLng α) (zoom : α) :
    LayerReport α (Option (Placement α)) :=
  match layer.renderer.placement? center zoom with
  | none => ⟨[], .ok none, layer⟩
  | some placement => layer.performing browser [.style (.transform placement)] (some placement)

/-- The calls that give the element its size, order and position. Resizing the backing store also
clears it and resets the coordinates of its context. -/
def layoutCalls [Scalar α] (options : LabelOptions α) (layout : Layout α) :
    List (BrowserCall α) :=
  [.deviceWidth layout.deviceWidth, .deviceHeight layout.deviceHeight,
    .style (.width layout.size.x), .style (.height layout.size.y),
    .style (.zIndex options.zIndex), .style .transformOrigin,
    .style (.transform (.unscaled layout.position))]

/-- A whole pass: the element is laid out for the frame and the features are drawn. -/
def drawPass [Scalar α] (layer : Layer α) (browser : Browser α) (frame : Frame α)
    (features : List (Feature α)) : LayerReport α (List (LabelOutcome α)) :=
  let begun := layer.renderer.beginPass frame
  let layout := layer.renderer.layoutFor frame
  match browser.perform (layoutCalls begun.options layout) with
  | (made, some refusal) => ⟨made, .error (.refused refusal), ⟨begun⟩⟩
  | (made, none) =>
    let report := begun.drawLabels (browser.after made).canvas layout features
    ⟨made ++ report.calls.map .draw, report.result, ⟨report.renderer⟩⟩

/-- The change of class that an action asks for. -/
def cursorCall? : Action → Option (BrowserCall α)
  | .cursor .interactive => some (.addClass .interactive)
  | .cursor .normal => some (.removeClass .interactive)
  | .entered _ | .left _ | .clicked _ => none

/-- The pointer is at a point at a time. -/
def movePointerAt [Scalar α] (layer : Layer α) (browser : Browser α) (point : Point α) (now : α) :
    LayerReport α (List Action) :=
  let (actions, renderer) := layer.renderer.movePointer point now
  performing ⟨renderer⟩ browser (actions.filterMap cursorCall?) actions

/-- The pointer is at a point now. -/
def movePointer [Scalar α] (layer : Layer α) (browser : Browser α) (point : Point α) :
    LayerReport α (List Action) :=
  layer.movePointerAt browser point browser.now

/-- The pointer has left the element. -/
def losePointer (layer : Layer α) (browser : Browser α) : LayerReport α (List Action) :=
  let (actions, renderer) := layer.renderer.losePointer
  performing ⟨renderer⟩ browser (actions.filterMap cursorCall?) actions

/-- What a click at a point does. -/
def click [Scalar α] (layer : Layer α) (point : Point α) : List Action :=
  layer.renderer.click point

/-- The layer with a device pixel ratio for the next pass. -/
def setDevicePixelRatio (layer : Layer α) (ratio : α) : Layer α :=
  ⟨{ layer.renderer with devicePixelRatio := ratio }⟩

/-- The place in the stack of the page's layers for the geometry drawn along with the labels. -/
def geometryZIndex : Int32 := 3

end Layer

end LabelledMap
