import LabelledMap.Text.Invisible

/-!
# Quoted text

A text between quotation marks, in which every character can be told apart: quotation marks and
backslashes follow a backslash, the common control characters have a letter, and other characters
that do not show are given by their code point.
-/

set_option autoImplicit false

namespace LabelledMap

/-- The hexadecimal digits of a code point. -/
def hexadecimal (value : Nat) : List Char := Nat.toDigits 16 value

/-- How a character is written between quotation marks. -/
def quotedChar (char : Char) : List Char :=
  if char = '"' then ['\\', '"']
  else if char = '\\' then ['\\', '\\']
  else if char = '\t' then ['\\', 't']
  else if char = '\n' then ['\\', 'n']
  else if char = '\r' then ['\\', 'r']
  else if char.toNat = 0 then ['\\', '0']
  else if isInvisible char then
    ['\\', 'u', '\x7b'] ++ hexadecimal char.toNat ++ ['\x7d']
  else [char]

/-- A text between quotation marks. -/
def quoted (text : String) : String :=
  String.ofList ('"' :: text.toList.flatMap quotedChar ++ ['"'])

end LabelledMap
