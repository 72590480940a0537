import LabelledMap.Decimal.Numeral
import LabelledMap.Json.Node
import LabelledMap.Scalar

/-!
# Numbers in JSON

The value of a written number, and the number written for a value. A number without point and
exponent is an integer if it fits into 64 bits, and `-0` is not one. The value of any other number
is computed from the longest run of leading digits that fits into 64 bits: that whole number is
multiplied or divided by a power of ten. A number too large to be finite has no value.

A value is written with the fewest digits, in full if its leading digit stands for a power of ten
from 10⁻⁵ to 10¹⁵, and otherwise with an exponent; there is always a digit after a point or an
exponent, which tells it from an integer.
-/

set_option autoImplicit false

namespace LabelledMap.Json

/-- The count of 64 bit words; all whole numbers below it fit into one. -/
def wordCount : Nat := UInt64.size

/-- Takes up leading digits as long as the number they make fits into 64 bits, and returns the
number with the digits left. -/
def takeDigits (significand : Nat) : List Digit → Nat × List Digit
  | [] => (significand, [])
  | digit :: rest =>
    let next := significand * 10 + digit.val
    if next < wordCount then takeDigits next rest else (significand, digit :: rest)

/-- The whole number that digits make. -/
def ofDigits (digits : List Digit) : Nat :=
  digits.foldl (fun value digit ↦ value * 10 + digit.val) 0

/-- The greatest power of ten that is finite in double precision. -/
def greatestPower : Nat := 308

section Value

variable {α : Type} [Scalar α]

/-- A value divided by a power of ten, in steps that are finite; nothing is left of zero to
divide. -/
def overPowerOfTen (value : α) (power : Nat) : α :=
  if power ≤ greatestPower then value / Scalar.powerOfTen power
  else if value == 0 then value
  else overPowerOfTen (value / Scalar.powerOfTen greatestPower) (power - greatestPower)
termination_by power
decreasing_by simp only [greatestPower] at *; omega

/-- A whole number times a power of ten, unless it is too large. -/
def scaled? (significand : Nat) (exponent : Int) : Option α :=
  let value : α := Scalar.ofNat significand
  if exponent < 0 then some (overPowerOfTen value (-exponent).toNat)
  else if exponent.toNat ≤ greatestPower then
    some (value * Scalar.powerOfTen exponent.toNat)
  else if value == 0 then some value
  else none

end Value

namespace Literal

/-- The whole number made of the digits that count, and its power of ten. -/
def parts (literal : Literal) : Nat × Int :=
  let (whole, wholeLeft) := takeDigits 0 literal.whole
  let (significand, fractionLeft) := takeDigits whole literal.fraction
  let written : Int := match literal.exponent with
    | none => 0
    | some (true, digits) => -(ofDigits digits : Int)
    | some (false, digits) => ofDigits digits
  (significand,
    (wholeLeft.length : Int) - (literal.fraction.length - fractionLeft.length : Nat) + written)

/-- The value of a number, if it is finite. -/
def value? {α : Type} [Scalar α] (literal : Literal) : Option α :=
  let (significand, exponent) := literal.parts
  (scaled? significand exponent).bind fun size ↦
    let value : α := if literal.negative then -size else size
    if Scalar.isFinite value then some value else none

/-- The integer that a number is, if it is written as one and fits into 64 bits. -/
def integer? (literal : Literal) : Option Int :=
  match literal.fraction, literal.exponent with
  | [], none =>
    let size := ofDigits literal.whole
    if literal.negative then
      if 0 < size && size ≤ wordCount / 2 then some (-(size : Int)) else none
    else if size < wordCount then some size
    else none
  | _, _ => none

/-- The digits of a whole number. -/
def digitsOf (value : Nat) : List Digit :=
  if h : value < 10 then [⟨value, h⟩]
  else digitsOf (value / 10) ++ [⟨value % 10, Nat.mod_lt value (by decide)⟩]
termination_by value

/-- An integer as it is written. -/
def ofInt (value : Int) : Literal := ⟨decide (value < 0), digitsOf value.natAbs, [], none⟩

/-- A finite numeral as it is written. -/
def ofFinite (negative : Bool) (size : Nat) (exponent : Int) : Literal :=
  let digits := digitsOf size
  let zeros (count : Nat) : List Digit := List.replicate count .zero
  let lead : Int := exponent + digits.length - 1
  if size = 0 then ⟨negative, [.zero], [.zero], none⟩
  else if lead < -5 || 15 < lead then
    ⟨negative, digits.take 1, digits.drop 1, some (decide (lead < 0), digitsOf lead.natAbs)⟩
  else if 0 ≤ exponent then ⟨negative, digits ++ zeros exponent.toNat, [.zero], none⟩
  else if 0 ≤ lead then
    ⟨negative, digits.take (lead.toNat + 1), digits.drop (lead.toNat + 1), none⟩
  else ⟨negative, [.zero], zeros (-lead - 1).toNat ++ digits, none⟩

/-- A numeral as it is written, if it is finite. -/
def ofNumeral? : Numeral → Option Literal
  | .finite negative size exponent => some (ofFinite negative size exponent)
  | .infinite _ | .notANumber => none

/-- The characters of digits. -/
def digitChars (digits : List Digit) : List Char :=
  digits.map (fun digit ↦ Nat.digitChar digit.val)

/-- The text of a number. -/
def chars (literal : Literal) : List Char :=
  let sign := if literal.negative then ['-'] else []
  let fraction := if literal.fraction.isEmpty then [] else '.' :: digitChars literal.fraction
  let exponent := match literal.exponent with
    | none => []
    | some (true, digits) => 'e' :: '-' :: digitChars digits
    | some (false, digits) => 'e' :: '+' :: digitChars digits
  sign ++ digitChars literal.whole ++ fraction ++ exponent

end Literal

end LabelledMap.Json
