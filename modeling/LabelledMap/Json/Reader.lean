import LabelledMap.Json.Node

/-!
# Reading JSON

The document of a text. Each reader takes characters and returns what it has read together with the
characters left; where reading stops, no characters are left. `Document.ofString` reads a whole
text.
-/

set_option autoImplicit false

namespace LabelledMap.Json

/-- Whether a character may stand between the parts of a document. -/
def isSpace (char : Char) : Bool := char = ' ' || char = '\t' || char = '\n' || char = '\r'

/-- A text without the white space at its beginning. -/
def skipSpace (text : List Char) : List Char := text.dropWhile isSpace

-- Taking codes of characters apart is costly, so this stays closed but to its own lemmas.
/-- The digit that a character stands for. -/
@[irreducible]
def digit? (char : Char) : Option Digit :=
  if h : char.toNat - '0'.toNat < 10 then
    if '0' ≤ char then some ⟨char.toNat - '0'.toNat, h⟩ else none
  else none

/-- The digits at the beginning of a text. -/
def readDigits : List Char → List Digit × List Char
  | [] => ([], [])
  | char :: rest =>
    match digit? char with
    | none => ([], char :: rest)
    | some digit =>
      let (digits, left) := readDigits rest
      (digit :: digits, left)

/-- Why digits are missing in front of the rest of a text. -/
def missingDigits : List Char → Break
  | [] => .unfinishedNumber
  | _ :: _ => .malformed

/-- The fraction of a number, if there is one: a point and at least one digit. -/
def readFraction : List Char → Except Break (List Digit × List Char)
  | '.' :: rest =>
    match readDigits rest with
    | ([], left) => .error (missingDigits left)
    | (digits, left) => .ok (digits, left)
  | rest => .ok ([], rest)

/-- The power of ten of a number, if there is one: a letter, perhaps a sign, and at least one
digit. -/
def readExponent : List Char → Except Break (Option (Bool × List Digit) × List Char)
  | [] => .ok (none, [])
  | letter :: rest =>
    if letter = 'e' || letter = 'E' then
      let (negative, unsigned) := match rest with
        | '-' :: unsigned => (true, unsigned)
        | '+' :: unsigned => (false, unsigned)
        | unsigned => (false, unsigned)
      match readDigits unsigned with
      | ([], left) => .error (missingDigits left)
      | (digits, left) => .ok (some (negative, digits), left)
    else .ok (none, letter :: rest)

/-- The whole digits of a number. Only the number zero begins with the digit zero. -/
def readWhole (text : List Char) : Except Break (List Digit × List Char) :=
  match readDigits text with
  | ([], left) => .error (missingDigits left)
  | ([digit], left) => .ok ([digit], left)
  | (digit :: digits, left) =>
    if digit = 0 then .error .malformed else .ok (digit :: digits, left)

/-- A number without its sign. -/
def readUnsigned (negative : Bool) (text : List Char) : Except Break (Literal × List Char) := do
  let (whole, rest) ← readWhole text
  let (fraction, rest) ← readFraction rest
  let (exponent, rest) ← readExponent rest
  return (⟨negative, whole, fraction, exponent⟩, rest)

/-- The value of a hexadecimal digit. -/
def hexDigit? (char : Char) : Option Nat :=
  if '0' ≤ char && char ≤ '9' then some (char.toNat - '0'.toNat)
  else if 'a' ≤ char && char ≤ 'f' then some (char.toNat - 'a'.toNat + 10)
  else if 'A' ≤ char && char ≤ 'F' then some (char.toNat - 'A'.toNat + 10)
  else none

/-- The code unit of four hexadecimal digits. -/
def codeUnit? (first second third fourth : Char) : Option Nat := do
  return (((← hexDigit? first) * 16 + (← hexDigit? second)) * 16 + (← hexDigit? third)) * 16 +
    (← hexDigit? fourth)

/-- The piece that a code unit stands for. -/
def Piece.ofCodeUnit (unit : Nat) : Piece :=
  if 0xD800 ≤ unit && unit < 0xDC00 then .leading (unit - 0xD800)
  else if 0xDC00 ≤ unit && unit < 0xE000 then .trailing (unit - 0xDC00)
  else .char (Char.ofNat unit)

/-- The character that a backslash and a letter stand for. -/
def escaped? (letter : Char) : Option Char :=
  match letter with
  | '"' => some '"'
  | '\\' => some '\\'
  | '/' => some '/'
  | 'b' => some '\x08'
  | 'f' => some '\x0c'
  | 'n' => some '\n'
  | 'r' => some '\r'
  | 't' => some '\t'
  | _ => none

/-- A string with one more piece in front, and the characters left. -/
def withPiece (piece : Piece) : Quote × List Char → Quote × List Char
  | (quote, rest) => ({ quote with pieces := piece :: quote.pieces }, rest)

/-- Why the four digits of a code unit are missing: there may not be four bytes left. -/
def missingUnit (text : List Char) : Break :=
  if (String.ofList text).utf8ByteSize < 4 then .unfinished else .malformed

/-- A string, from behind its opening quotation mark. Control characters have to be escaped. -/
def readQuote : List Char → Quote × List Char
  | [] => (⟨[], some .unfinished⟩, [])
  | '"' :: rest => (⟨[], none⟩, rest)
  | ['\\'] => (⟨[], some .unfinished⟩, [])
  | '\\' :: 'u' :: first :: second :: third :: fourth :: rest =>
    match codeUnit? first second third fourth with
    | some unit => withPiece (.ofCodeUnit unit) (readQuote rest)
    | none => (⟨[], some .malformed⟩, [])
  | '\\' :: letter :: rest =>
    if letter = 'u' then (⟨[], some (missingUnit rest)⟩, [])
    else
      match escaped? letter with
      | some char => withPiece (.char char) (readQuote rest)
      | none => (⟨[], some .malformed⟩, [])
  | char :: rest =>
    if char.toNat < 0x20 then (⟨[], some .malformed⟩, []) else withPiece (.char char) (readQuote rest)

/-- The rest of a text after a word, or why the word is not there. -/
def readWord : List Char → List Char → Except Break (List Char)
  | [], text => .ok text
  | _ :: _, [] => .error .unfinished
  | char :: word, next :: text => if next = char then readWord word text else .error .malformed

/-- A word as a value. -/
def readConstant (word : List Char) (value : Node) (text : List Char) : Node × List Char :=
  match readWord word text with
  | .ok rest => (value, rest)
  | .error reason => (.broken reason, [])

/-- A number as a value. -/
def readNumber (negative : Bool) (text : List Char) : Node × List Char :=
  match readUnsigned negative text with
  | .ok (literal, rest) => (.number literal, rest)
  | .error reason => (.broken reason, [])

mutual

/-- A value. The depth bounds the number of readers that wait for each other. -/
def readNode : Nat → List Char → Node × List Char
  | 0, _ => (.broken .unfinished, [])
  | depth + 1, text =>
    match skipSpace text with
    | [] => (.broken .unfinished, [])
    | '"' :: rest =>
      let (quote, rest) := readQuote rest
      (.string quote, rest)
    | '[' :: rest =>
      let (items, rest) := readItems depth true rest
      (.array items, rest)
    | '\x7b' :: rest =>
      let (members, rest) := readMembers depth true rest
      (.object members, rest)
    | '-' :: rest => readNumber true rest
    | 'n' :: rest => readConstant ['u', 'l', 'l'] .null rest
    | 't' :: rest => readConstant ['r', 'u', 'e'] (.boolean true) rest
    | 'f' :: rest => readConstant ['a', 'l', 's', 'e'] (.boolean false) rest
    | char :: rest =>
      if (digit? char).isSome then readNumber false (char :: rest) else (.broken .malformed, [])

/-- The items of an array, from behind its bracket or from behind an item. -/
def readItems : Nat → Bool → List Char → Items × List Char
  | 0, _, _ => (.done (some .unfinished), [])
  | depth + 1, first, text =>
    match skipSpace text with
    | [] => (.done (some .unfinished), [])
    | ']' :: rest => (.done none, rest)
    | char :: rest =>
      if first then readItem depth (char :: rest)
      else if char = ',' then
        match skipSpace rest with
        | ']' :: _ => (.item (.broken .malformed) (.done none), [])
        | rest => readItem depth rest
      else (.done (some .malformed), [])

/-- An item of an array and the items after it. -/
def readItem : Nat → List Char → Items × List Char
  | 0, _ => (.done (some .unfinished), [])
  | depth + 1, text =>
    let (node, rest) := readNode depth text
    let (items, rest) := readItems depth false rest
    (.item node items, rest)

/-- The members of an object, from behind its brace or from behind a member. -/
def readMembers : Nat → Bool → List Char → Members × List Char
  | 0, _, _ => (.done (some .unfinished), [])
  | depth + 1, first, text =>
    match skipSpace text with
    | [] => (.done (some .unfinished), [])
    | '\x7d' :: rest => (.done none, rest)
    | char :: rest =>
      if first then readMember depth (char :: rest)
      else if char = ',' then readMember depth (skipSpace rest)
      else (.done (some .malformed), [])

/-- A member of an object and the members after it. -/
def readMember : Nat → List Char → Members × List Char
  | 0, _ => (.done (some .unfinished), [])
  | depth + 1, text =>
    match text with
    | [] => (.done (some .unfinished), [])
    | '"' :: rest =>
      let (key, rest) := readQuote rest
      match skipSpace rest with
      | [] => (.member key (.broken .unfinished) (.done none), [])
      | ':' :: rest =>
        let (value, rest) := readNode depth rest
        let (members, rest) := readMembers depth false rest
        (.member key value members, rest)
      | _ :: _ => (.member key (.broken .malformed) (.done none), [])
    | _ :: _ => (.done (some .malformed), [])

end

/-- The document of a text. -/
def Document.ofString (text : String) : Document :=
  let chars := text.toList
  let (root, rest) := readNode (3 * chars.length + 3) chars
  ⟨root, (skipSpace rest).isEmpty⟩

end LabelledMap.Json
