import LabelledMap.Decimal.Numeral
import LabelledMap.Plane.Point
import LabelledMap.Text.Blank

/-!
# Label options

How labels look and where they are placed. Every option has a standard value. Options that come
from outside are checked once by `LabelOptions.validate`, so that drawing can count on a finite
offset, on weights that are not negative and on a font; the first option that does not pass is
reported.
-/

set_option autoImplicit false

namespace LabelledMap

/-- How labels are drawn. -/
structure LabelOptions (α : Type) where
  /-- Whether a label that meets one placed before is left out. -/
  collision : Bool
  /-- The width of the line around the text. -/
  textBorderWeight : α
  textBorderColor : String
  /-- The width of the line while the text is filled. -/
  textWeight : α
  /-- The colour of labels whose feature has none of its own. -/
  textColor : String
  font : String
  /-- The place of the overlay in the stack of the page's layers. -/
  zIndex : Int32
  /-- The displacement from a label's anchor to its box. -/
  offset : Point α
  /-- How far the overlay reaches beyond the window on each side, as a fraction of its size. -/
  padding : α
  /-- How far beside a shape the pointer still hits it. -/
  clickTolerance : α
deriving DecidableEq

/-- Why options cannot be used. -/
inductive OptionFault (α : Type) where
  | infiniteOffset (offset : Point α)
  /-- A named option is negative, infinite or not a number. -/
  | negative (option : String) (value : α)
  | blankFont
  | infiniteZoom (value : α)
  | centerOutside

namespace OptionFault

variable {α : Type}

/-- The name of the option at fault. -/
def option : OptionFault α → String
  | infiniteOffset _ => "offset"
  | negative option _ => option
  | blankFont => "font"
  | infiniteZoom _ => "zoom"
  | centerOutside => "center"

/-- What is wrong with the option. -/
def reason [Legible α] : OptionFault α → String
  | infiniteOffset offset =>
    "must be finite, got (" ++ Legible.text offset.x ++ ", " ++ Legible.text offset.y ++ ")"
  | negative _ value => "must be a non-negative number, got " ++ Legible.text value
  | blankFont => "must not be empty"
  | infiniteZoom value => "must be finite, got " ++ Legible.text value
  | centerOutside => "must lie inside max_bounds"

def message [Legible α] (fault : OptionFault α) : String :=
  "invalid option `" ++ fault.option ++ "`: " ++ fault.reason

end OptionFault

variable {α : Type} [Scalar α]

/-- Accepts finite values from zero on. -/
def requireNonNegative (option : String) (value : α) : Except (OptionFault α) Unit :=
  if Scalar.isFinite value && 0 ≤ value then .ok () else .error (.negative option value)

namespace LabelOptions

/-- The options that hold where nothing else is said. -/
def standard : LabelOptions α where
  collision := true
  textBorderWeight := 2
  textBorderColor := "black"
  textWeight := 4
  textColor := "white"
  font := "14px sans"
  zIndex := 600
  offset := ⟨8, 5⟩
  padding := 0.1
  clickTolerance := 0

/-- Accepts options that labels can be drawn with. -/
def validate (options : LabelOptions α) : Except (OptionFault α) Unit := do
  unless options.offset.isFinite do throw (.infiniteOffset options.offset)
  requireNonNegative "text_border_weight" options.textBorderWeight
  requireNonNegative "text_weight" options.textWeight
  requireNonNegative "padding" options.padding
  requireNonNegative "click_tolerance" options.clickTolerance
  if isBlank options.font then throw .blankFont

end LabelOptions

end LabelledMap
