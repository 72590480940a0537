import LabelledMap.Globe.Coordinate
import LabelledMap.Plane.Rect

/-!
# Frames

The overlay is drawn for one view of the map at a time. A `Frame` is that view: the padded area to
draw, the centre and zoom level, and the size of the window on the map. `Layout.ofFrame` is what
the overlay's element needs for it: position and size on the page, the number of device pixels
behind them, and the displacement that makes layer coordinates land where they belong. `DrawnView`
is the part of a frame that is remembered until the next one.
-/

set_option autoImplicit false

namespace LabelledMap

/-- The view that one drawing of the overlay shows. -/
structure Frame (α : Type) where
  /-- The area to draw, in layer pixels. -/
  bounds : Rect α
  /-- The map's centre. -/
  center : LatLng α
  zoom : α
  /-- The size of the visible window, without padding. -/
  window : Point α

variable {α : Type} [Scalar α]

/-- The frame of a window with its top left corner at `origin`, extended on each side by the
fraction `padding` of its size, with whole pixel corners. -/
def Frame.padded (origin window : Point α) (padding : α) (center : LatLng α) (zoom : α) :
    Frame α :=
  let min := (origin - padding • window).round
  let max := (min + (1 + 2 * padding) • window).round
  { bounds := .ofCorners min max, center, zoom, window }

/-- Where the overlay's element lies, how large it is, and how it is drawn into. -/
structure Layout (α : Type) where
  /-- The element's top left corner in layer pixels. -/
  position : Point α
  /-- The element's size on the page. -/
  size : Point α
  /-- The number of device pixels in a row. -/
  deviceWidth : UInt32
  /-- The number of device pixels in a column. -/
  deviceHeight : UInt32
  /-- How many device pixels make up the side of one pixel of the page. -/
  pixelRatio : α
  /-- The displacement from layer coordinates to coordinates of the element. -/
  origin : Point α

namespace Layout

/-- Two device pixels to a pixel on displays of high density, one on others. -/
def pixelRatioOf (devicePixelRatio : α) : α := if 1 < devicePixelRatio then 2 else 1

/-- A length in device pixels, rounded and cut off at the ends of the count's range. -/
def devicePixels (length : α) : UInt32 :=
  Scalar.toUInt32 (Scalar.clamp (Scalar.round length) 0 4294967295)

/-- The layout that shows a frame on a display with the given device pixel ratio. -/
def ofFrame (frame : Frame α) (devicePixelRatio : α) : Layout α :=
  let pixelRatio := pixelRatioOf devicePixelRatio
  let size := frame.bounds.size
  { position := frame.bounds.min
    size
    deviceWidth := devicePixels (size.x * pixelRatio)
    deviceHeight := devicePixels (size.y * pixelRatio)
    pixelRatio
    origin := -frame.bounds.min }

end Layout

/-- The view the overlay was last drawn for. -/
structure DrawnView (α : Type) where
  center : LatLng α
  zoom : α
  /-- The top left corner the element was given. -/
  position : Point α
  window : Point α

omit [Scalar α] in
/-- What is remembered of a frame. -/
def DrawnView.ofFrame (frame : Frame α) : DrawnView α where
  center := frame.center
  zoom := frame.zoom
  position := frame.bounds.min
  window := frame.window

end LabelledMap
