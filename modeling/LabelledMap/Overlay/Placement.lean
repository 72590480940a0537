import LabelledMap.Decimal.Numeral
import LabelledMap.Globe.Projection
import LabelledMap.Overlay.Frame

/-!
# Placements

While the map is dragged or zoomed the overlay is not drawn again. Its element is moved and scaled
so that what was drawn last stays in line with the moving view. `Placement.following` computes this
placement, `Placement.locate` says where it takes a pixel of the element, and `Placement.css` is
its text as a style value. The scale keeps the element's top left corner in place, which is what
the transform origin `Placement.transformOrigin` asks of the page.
-/

set_option autoImplicit false

namespace LabelledMap

/-- A displacement and a scale of the overlay's element. -/
@[ext]
structure Placement (α : Type) where
  /-- The layer point that the element's top left corner is moved to. -/
  topLeft : Point α
  scale : α

namespace Placement

variable {α : Type}

/-- The fixed point of the scale, as a style value: the element's top left corner. -/
def transformOrigin : String := "0 0"

/-- The placement that leaves an element unscaled at a position. -/
def unscaled [Scalar α] (position : Point α) : Placement α := ⟨position, 1⟩

/-- The layer point that a pixel of the element lands on. -/
def locate [Scalar α] (placement : Placement α) (pixel : Point α) : Point α :=
  placement.topLeft + placement.scale • pixel

/-- The placement as the value of a style's transform. -/
def css [Legible α] (placement : Placement α) : String :=
  "translate3d(" ++ Legible.text placement.topLeft.x ++ "px," ++
    Legible.text placement.topLeft.y ++ "px,0) scale(" ++ Legible.text placement.scale ++ ")"

/-- The placement that keeps an overlay drawn for one view in line with a view that moves to
another centre and zoom level. The padding says where the view's centre lies on the element. -/
def following [Analytic α] (projection : Projection α) (drawn : DrawnView α) (padding : α)
    (center : LatLng α) (zoom : α) : Placement α :=
  let scale := zoomScale zoom drawn.zoom
  let half := (0.5 + padding) • drawn.window
  let shift := projection.project center zoom - projection.project drawn.center zoom
  { topLeft := (-scale) • half + drawn.position + half - shift, scale }

end Placement

end LabelledMap
