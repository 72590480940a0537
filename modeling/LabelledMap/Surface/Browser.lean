import LabelledMap.Overlay.Placement
import LabelledMap.Surface.Canvas

/-!
# The browser

What the overlay asks of the browser it is shown in. The overlay is one element: its context is
fetched once, its backing store is resized, and its style and classes are set. `BrowserCall` lists
these calls together with those to the context, in the one order in which the browser gets them;
`StyleRule.property` and `StyleRule.value` are the texts of a style rule. Resizing never fails.
`Browser.canvas` is the browser seen as a canvas, and `Browser.now` and `Browser.pixelRatio` are
what it says of time and of its display.
-/

set_option autoImplicit false

namespace LabelledMap

/-- A property of the element's style with its value. -/
inductive StyleRule (α : Type) where
  | absolute
  | width (length : α)
  | height (length : α)
  | zIndex (index : Int32)
  | transformOrigin
  | transform (placement : Placement α)

namespace StyleRule

variable {α : Type}

/-- The name of the property. -/
def property : StyleRule α → String
  | absolute => "position"
  | width _ => "width"
  | height _ => "height"
  | zIndex _ => "z-index"
  | transformOrigin => "transform-origin"
  | transform _ => "transform"

/-- The text of the value. -/
def value [Legible α] : StyleRule α → String
  | absolute => "absolute"
  | width length => Legible.text length ++ "px"
  | height length => Legible.text length ++ "px"
  | zIndex index => toString index.toInt
  | transformOrigin => Placement.transformOrigin
  | transform placement => placement.css

end StyleRule

/-- A class of the element. -/
inductive ElementClass where
  /-- The pointer is over a feature that reacts to it. -/
  | interactive
  /-- The element follows the map's zoom animation. -/
  | zoomAnimated
deriving DecidableEq

/-- The name of a class. -/
def ElementClass.name : ElementClass → String
  | interactive => "interactive"
  | zoomAnimated => "zoom-animated"

/-- A call to the browser. -/
inductive BrowserCall (α : Type) where
  | getContext
  | deviceWidth (pixels : UInt32)
  | deviceHeight (pixels : UInt32)
  | style (rule : StyleRule α)
  | addClass (name : ElementClass)
  | removeClass (name : ElementClass)
  | draw (call : CanvasCall α)

/-- Whether the browser can refuse the call. -/
def BrowserCall.refusable {α : Type} : BrowserCall α → Bool
  | deviceWidth _ | deviceHeight _ => false
  | getContext | style _ | addClass _ | removeClass _ => true
  | draw call => call.refusable

/-- The context that an element has. -/
inductive ContextKind where
  | absent
  /-- A context for drawing in the plane. -/
  | planar
  | foreign
deriving DecidableEq

/-- A window of the browser. -/
structure Window (α : Type) where
  devicePixelRatio : α
  /-- The time since the page was loaded, if the window tells it. -/
  elapsed : Option α

/-- How a browser answers, given the calls made earlier. -/
structure Browser (α : Type) where
  context : ContextKind
  measure : List (BrowserCall α) → String → Except (Refusal α) α
  /-- Why a call is refused, asked of those that can be. -/
  refuses : Refusals (BrowserCall α) (Refusal α)
  /-- The window, where the program runs in one. -/
  window : Option (Window α)
  /-- The time by the calendar, in milliseconds. -/
  date : α

namespace Browser

variable {α : Type}

/-- The browser once some calls have been made. -/
def after (browser : Browser α) (made : List (BrowserCall α)) : Browser α :=
  { browser with
    measure := fun earlier text ↦ browser.measure (made ++ earlier) text
    refuses := browser.refuses.after made }

/-- The refusals of a browser; a call that cannot be refused is accepted. -/
def refusals (browser : Browser α) : Refusals (BrowserCall α) (Refusal α) :=
  fun earlier call ↦ if call.refusable then browser.refuses earlier call else none

/-- Makes calls one after the other up to the first one refused. -/
def perform (browser : Browser α) (calls : List (BrowserCall α)) :
    List (BrowserCall α) × Option (Refusal α) :=
  browser.refusals.attempt calls

/-- The browser's context as a canvas. -/
def canvas (browser : Browser α) : Canvas α where
  measure earlier text := browser.measure (earlier.map .draw) text
  refuses earlier call := browser.refuses (earlier.map .draw) (.draw call)

/-- The time in milliseconds: since the page was loaded, or else by the calendar. -/
def now (browser : Browser α) : α := (browser.window.bind (·.elapsed)).getD browser.date

/-- The device pixel ratio of the display, one outside a window. -/
def pixelRatio [Scalar α] (browser : Browser α) : α :=
  (browser.window.map (·.devicePixelRatio)).getD 1

@[simp] theorem after_nil (browser : Browser α) : browser.after [] = browser := rfl

theorem after_after (browser : Browser α) (first second : List (BrowserCall α)) :
    (browser.after first).after second = browser.after (first ++ second) := by
  simp only [after, Refusals.after_after, List.append_assoc]

end Browser

end LabelledMap
