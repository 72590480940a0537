/-!
# Decimal numerals

A numeral is a whole number of decimal digits with a power of ten, or one of the values that have
no digits. `Numeral.positional` writes it without an exponent. A class of numbers is `Legible` if
each of them has a shortest numeral and can be rounded to a number of decimal places; `Tie` says
which of two equally near numerals is meant.
-/

set_option autoImplicit false

namespace LabelledMap

/-- Ten to a power. -/
def tenTo (power : Nat) : Nat := Nat.pow 10 power

/-- Two to a power. -/
def twoTo (power : Nat) : Nat := Nat.pow 2 power

/-- A decimal number: the finite ones are `digits` times ten to the power of `exponent`. -/
inductive Numeral where
  | finite (negative : Bool) (digits : Nat) (exponent : Int)
  | infinite (negative : Bool)
  | notANumber
deriving DecidableEq

namespace Numeral

/-- The decimal digits of a number, without leading zeros but for zero itself. -/
def digitsOf (value : Nat) : List Char := Nat.toDigits 10 value

/-- A sign in front of a negative number. -/
def signed (negative : Bool) (text : List Char) : String :=
  String.ofList (if negative then '-' :: text else text)

/-- The numeral written in full: all whole digits, and a point only in front of a fraction. A
numeral with a negative exponent shows as many decimals as the exponent says. -/
def positional : Numeral → String
  | finite negative digits exponent =>
    if 0 ≤ exponent then
      let zeros := if digits = 0 then 0 else exponent.toNat
      signed negative (digitsOf digits ++ List.replicate zeros '0')
    else
      let places := (-exponent).toNat
      let fraction := digitsOf (digits % tenTo places)
      signed negative (digitsOf (digits / tenTo places) ++
        '.' :: List.replicate (places - fraction.length) '0' ++ fraction)
  | infinite negative => signed negative ['i', 'n', 'f']
  | notANumber => "NaN"

end Numeral

/-- Which of two neighbours is taken for a value halfway between them. -/
inductive Tie where
  | up
  | even
deriving DecidableEq

/-- The neighbour taken for a value halfway between `low` and `low + 1`. -/
def Tie.choose (tie : Tie) (low : Nat) : Nat :=
  match tie with
  | up => low + 1
  | even => low + low % 2

/-- Numbers that can be written down. -/
class Legible (α : Type) where
  /-- The numeral with the fewest digits that is nearer to this value than to any other. -/
  shortest : Tie → α → Numeral
  /-- The nearest numeral with a given number of decimal places; a half goes to the even
  neighbour. -/
  rounded : Nat → α → Numeral

namespace Legible

variable {α : Type} [Legible α]

/-- A value written in full with the fewest digits that tell it from all others. -/
def text (value : α) : String := (shortest .up value).positional

/-- A value written in full with a fixed number of decimal places. -/
def fixed (places : Nat) (value : α) : String := (rounded places value).positional

end Legible

end LabelledMap
