import LabelledMap.Json.Codec

/-!
# Writing JSON

The text of a value, without white space. In strings only quotation marks, backslashes and control
characters are escaped; the common control characters have a letter of their own. What a document
does not hold because reading stopped is not written.
-/

set_option autoImplicit false

namespace LabelledMap.Json

/-- How a character is written in a string. -/
def escapedChar (char : Char) : List Char :=
  if char = '"' then ['\\', '"']
  else if char = '\\' then ['\\', '\\']
  else if char = '\x08' then ['\\', 'b']
  else if char = '\x0c' then ['\\', 'f']
  else if char = '\n' then ['\\', 'n']
  else if char = '\r' then ['\\', 'r']
  else if char = '\t' then ['\\', 't']
  else if char.toNat < 0x20 then
    ['\\', 'u', '0', '0', Nat.digitChar (char.toNat / 16), Nat.digitChar (char.toNat % 16)]
  else [char]

/-- The four digits of a code unit. -/
def unitChars (unit : Nat) : List Char :=
  ['\\', 'u', Nat.digitChar (unit / 4096 % 16), Nat.digitChar (unit / 256 % 16),
    Nat.digitChar (unit / 16 % 16), Nat.digitChar (unit % 16)]

/-- How a piece of a string is written. -/
def Piece.chars : Piece → List Char
  | .char character => escapedChar character
  | .leading bits => unitChars (0xD800 + bits)
  | .trailing bits => unitChars (0xDC00 + bits)

/-- The text of a string. -/
def Quote.chars (quote : Quote) : List Char := '"' :: quote.pieces.flatMap Piece.chars ++ ['"']

mutual

/-- The text of a value. -/
def Node.chars : Node → List Char
  | .null => ['n', 'u', 'l', 'l']
  | .boolean true => ['t', 'r', 'u', 'e']
  | .boolean false => ['f', 'a', 'l', 's', 'e']
  | .number literal => literal.chars
  | .string quote => quote.chars
  | .array items => '[' :: items.chars true
  | .object members => '\x7b' :: members.chars true
  | .broken _ => []

/-- The text of items up to the closing bracket. -/
def Items.chars (first : Bool) : Items → List Char
  | .done _ => [']']
  | .item node rest => (if first then [] else [',']) ++ node.chars ++ rest.chars false

/-- The text of members up to the closing brace. -/
def Members.chars (first : Bool) : Members → List Char
  | .done _ => ['\x7d']
  | .member key value rest =>
    (if first then [] else [',']) ++ key.chars ++ ':' :: value.chars ++ rest.chars false

end

/-- The text that a codec writes for a value. -/
def Codec.toText {τ : Type} (codec : Codec τ) (value : τ) : String :=
  String.ofList (codec.write value).chars

end LabelledMap.Json
