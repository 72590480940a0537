import LabelledMap.Json.Printer
import Mathlib.Tactic.SplitIfs

/-!
# Documents and their texts

A document that is written is read back as it was (`Document.ofString_chars`), so that whatever a
codec has written reaches it again (`Codec.ofText_toText`). This takes a document that is complete
and whose numbers are written as numbers are (`Node.Written`): without leading zeros, and with a
digit wherever a reader expects one. Strings may hold any characters.

A number has no end of its own. It ends where what follows cannot belong to it, and after a value
there comes a comma, a closing bracket or brace, or nothing at all (`AfterValue`).
-/

set_option autoImplicit false

namespace LabelledMap.Json

/-! ### Numbers -/

theorem digit?_digitChar (digit : Digit) : digit? (Nat.digitChar digit.val) = some digit := by
  revert digit
  decide +kernel

/-- What follows does not begin with a digit. -/
def NoDigit : List Char → Prop
  | [] => True
  | char :: _ => digit? char = none

theorem digitChars_cons (digit : Digit) (digits : List Digit) :
    Literal.digitChars (digit :: digits) =
      Nat.digitChar digit.val :: Literal.digitChars digits := List.map_cons

theorem readDigits_append {rest : List Char} (hrest : NoDigit rest) (digits : List Digit) :
    readDigits (Literal.digitChars digits ++ rest) = (digits, rest) := by
  induction digits with
  | nil =>
    cases rest with
    | nil => rfl
    | cons char rest =>
      have hchar : digit? char = none := hrest
      rw [Literal.digitChars, List.map_nil, List.nil_append, readDigits, hchar]
  | cons digit digits ih =>
    rw [digitChars_cons, List.cons_append, readDigits, digit?_digitChar, ih]

/-- What can follow a value: a comma, a bracket or a brace, or nothing. -/
def AfterValue : List Char → Prop
  | [] => True
  | char :: _ => char = ',' ∨ char = ']' ∨ char = '\x7d'

namespace Literal

/-- A number as numbers are written: no zeros lead it, and no digits are missing. -/
structure Written (literal : Literal) : Prop where
  whole : ∃ first rest, literal.whole = first :: rest ∧ (rest = [] ∨ first ≠ 0)
  exponent : ∀ negative digits, literal.exponent = some (negative, digits) → digits ≠ []

/-- The text of a fraction. -/
def fractionChars (fraction : List Digit) : List Char :=
  if fraction.isEmpty then [] else '.' :: digitChars fraction

/-- The text of a power of ten. -/
def exponentChars : Option (Bool × List Digit) → List Char
  | none => []
  | some (true, digits) => 'e' :: '-' :: digitChars digits
  | some (false, digits) => 'e' :: '+' :: digitChars digits

theorem chars_eq (literal : Literal) :
    literal.chars = (if literal.negative then ['-'] else []) ++ (digitChars literal.whole ++
      (fractionChars literal.fraction ++ exponentChars literal.exponent)) := by
  simp only [← List.append_assoc]
  rfl

end Literal

theorem readWhole_append {whole : List Digit} {rest : List Char}
    (hwhole : ∃ first more, whole = first :: more ∧ (more = [] ∨ first ≠ 0))
    (hrest : NoDigit rest) :
    readWhole (Literal.digitChars whole ++ rest) = .ok (whole, rest) := by
  unfold readWhole
  rw [readDigits_append hrest]
  obtain ⟨first, more, rfl, hfirst⟩ := hwhole
  cases more with
  | nil => rfl
  | cons second more => exact if_neg (hfirst.resolve_left (List.cons_ne_nil _ _))

theorem readFraction_append {fraction : List Digit} {rest : List Char} (hrest : NoDigit rest)
    (hpoint : rest.head? ≠ some '.') :
    readFraction (Literal.fractionChars fraction ++ rest) = .ok (fraction, rest) := by
  cases fraction with
  | nil =>
    cases rest with
    | nil => rfl
    | cons char rest =>
      change readFraction (char :: rest) = _
      unfold readFraction
      split
      · next heq => exact absurd (congrArg List.head? heq) hpoint
      · rfl
  | cons digit fraction =>
    change readFraction ('.' :: (Literal.digitChars (digit :: fraction) ++ rest)) = _
    rw [readFraction, readDigits_append hrest]

theorem readExponent_append {exponent : Option (Bool × List Digit)} {rest : List Char}
    (hexponent : ∀ negative digits, exponent = some (negative, digits) → digits ≠ [])
    (hrest : NoDigit rest) (hletter : rest.head? ≠ some 'e' ∧ rest.head? ≠ some 'E') :
    readExponent (Literal.exponentChars exponent ++ rest) = .ok (exponent, rest) := by
  have hdigits : ∀ {digits : List Digit}, digits ≠ [] →
      ∃ first more, digits = first :: more := List.exists_cons_of_ne_nil
  match exponent, hexponent with
  | none, _ =>
    cases rest with
    | nil => rfl
    | cons char rest =>
      have hchar : ¬(decide (char = 'e') || decide (char = 'E')) = true := by
        simpa using hletter
      change readExponent (char :: rest) = _
      unfold readExponent
      exact if_neg hchar
  | some (true, digits), hexponent =>
    obtain ⟨first, more, rfl⟩ := hdigits (hexponent true digits rfl)
    change readExponent ('e' :: '-' :: (Literal.digitChars (first :: more) ++ rest)) = _
    unfold readExponent
    simp [readDigits_append hrest]
  | some (false, digits), hexponent =>
    obtain ⟨first, more, rfl⟩ := hdigits (hexponent false digits rfl)
    change readExponent ('e' :: '+' :: (Literal.digitChars (first :: more) ++ rest)) = _
    unfold readExponent
    simp [readDigits_append hrest]

theorem noDigit_cons {char : Char} (hchar : digit? char = none) (rest : List Char) :
    NoDigit (char :: rest) := hchar

theorem AfterValue.noDigit {rest : List Char} (hrest : AfterValue rest) : NoDigit rest := by
  cases rest with
  | nil => trivial
  | cons char rest =>
    rcases hrest with rfl | rfl | rfl
    · exact noDigit_cons (by decide +kernel) rest
    · exact noDigit_cons (by decide +kernel) rest
    · exact noDigit_cons (by decide +kernel) rest

theorem AfterValue.head?_ne {rest : List Char} (hrest : AfterValue rest) {char : Char}
    (hcomma : char ≠ ',') (hbracket : char ≠ ']') (hbrace : char ≠ '\x7d') :
    rest.head? ≠ some char := by
  cases rest with
  | nil => simp
  | cons next rest =>
    intro hhead
    obtain rfl := Option.some.inj hhead
    rcases hrest with rfl | rfl | rfl
    · exact hcomma rfl
    · exact hbracket rfl
    · exact hbrace rfl

/-- A power of ten does not go on what stands before it, be it digits or a whole number. -/
theorem exponentChars_append {rest : List Char} (hrest : AfterValue rest)
    (exponent : Option (Bool × List Digit)) :
    NoDigit (Literal.exponentChars exponent ++ rest) ∧
      (Literal.exponentChars exponent ++ rest).head? ≠ some '.' := by
  match exponent with
  | none => exact ⟨hrest.noDigit, hrest.head?_ne (by decide) (by decide) (by decide)⟩
  | some (true, digits) | some (false, digits) =>
    exact ⟨noDigit_cons (by decide +kernel) _, by simp [Literal.exponentChars]⟩

/-- A number is read up to where it cannot go on. -/
theorem readUnsigned_append {literal : Literal} (hwritten : literal.Written) (negative : Bool)
    {rest : List Char} (hrest : AfterValue rest) :
    readUnsigned negative (Literal.digitChars literal.whole ++
      (Literal.fractionChars literal.fraction ++
        (Literal.exponentChars literal.exponent ++ rest))) =
      .ok ({ literal with negative }, rest) := by
  obtain ⟨hexponent, hpoint⟩ := exponentChars_append hrest literal.exponent
  have hfraction : NoDigit (Literal.fractionChars literal.fraction ++
      (Literal.exponentChars literal.exponent ++ rest)) := by
    cases literal.fraction with
    | nil => exact hexponent
    | cons digit fraction => exact noDigit_cons (by decide +kernel) _
  have hletter : rest.head? ≠ some 'e' ∧ rest.head? ≠ some 'E' :=
    ⟨hrest.head?_ne (by decide) (by decide) (by decide),
      hrest.head?_ne (by decide) (by decide) (by decide)⟩
  unfold readUnsigned
  rw [readWhole_append hwritten.whole hfraction]
  dsimp only [bind, Except.bind]
  rw [readFraction_append hexponent hpoint]
  dsimp only
  rw [readExponent_append hwritten.exponent hrest.noDigit hletter]
  rfl

/-- A character that begins a number is none of those that begin other values. -/
theorem readNode_digitChar (depth : Nat) (digit : Digit) (rest : List Char) :
    readNode (depth + 1) (Nat.digitChar digit.val :: rest) =
      readNumber false (Nat.digitChar digit.val :: rest) := by
  have hdigit : (digit? (Nat.digitChar digit.val)).isSome = true := by
    rw [digit?_digitChar]
    rfl
  match digit, hdigit with
  | 0, hdigit | 1, hdigit | 2, hdigit | 3, hdigit | 4, hdigit | 5, hdigit | 6, hdigit
  | 7, hdigit | 8, hdigit | 9, hdigit => exact if_pos hdigit

/-- A number that is written is read. -/
theorem readNode_number {literal : Literal} (hwritten : literal.Written) (depth : Nat)
    {rest : List Char} (hrest : AfterValue rest) :
    readNode (depth + 1) (literal.chars ++ rest) = (.number literal, rest) := by
  have hread : readNumber literal.negative (Literal.digitChars literal.whole ++
      (Literal.fractionChars literal.fraction ++
        (Literal.exponentChars literal.exponent ++ rest))) = (.number literal, rest) := by
    unfold readNumber
    rw [readUnsigned_append hwritten _ hrest]
  obtain ⟨first, more, hwhole, -⟩ := hwritten.whole
  rw [Literal.chars_eq, List.append_assoc, List.append_assoc, List.append_assoc]
  cases hsign : literal.negative with
  | true =>
    rw [hsign] at hread
    exact hread
  | false =>
    rw [hsign, hwhole, digitChars_cons] at hread
    rw [hwhole, digitChars_cons]
    exact (readNode_digitChar depth first _).trans hread

/-! ### Strings -/

/-- A control character is written as its code unit. -/
theorem codeUnit?_control : ∀ unit < 0x20,
    codeUnit? '0' '0' (Nat.digitChar (unit / 16)) (Nat.digitChar (unit % 16)) = some unit ∧
      Piece.ofCodeUnit unit = .char (Char.ofNat unit) := by
  decide +kernel

/-- A character that need not be escaped stands for itself. -/
theorem readQuote_plain {char : Char} (hquote : char ≠ '"') (hbackslash : char ≠ '\\')
    (hcontrol : ¬char.toNat < 0x20) (rest : List Char) :
    readQuote (char :: rest) = withPiece (.char char) (readQuote rest) := by
  rw [readQuote.eq_def]
  split
  · next heq => cases heq
  · next heq => exact absurd (List.cons.inj heq).1 hquote
  · next heq => exact absurd (List.cons.inj heq).1 hbackslash
  · next heq => exact absurd (List.cons.inj heq).1 hbackslash
  · next heq => exact absurd (List.cons.inj heq).1 hbackslash
  · next heq =>
    obtain ⟨rfl, rfl⟩ := List.cons.inj heq
    exact if_neg hcontrol

/-- A character that is written in a string is read as it was. -/
theorem readQuote_escapedChar (char : Char) (rest : List Char) :
    readQuote (escapedChar char ++ rest) = withPiece (.char char) (readQuote rest) := by
  unfold escapedChar
  split_ifs with hquote hbackslash hback hfeed hline hreturn htab hcontrol
  · rw [hquote]; rfl
  · rw [hbackslash]; rfl
  · rw [hback]; rfl
  · rw [hfeed]; rfl
  · rw [hline]; rfl
  · rw [hreturn]; rfl
  · rw [htab]; rfl
  · obtain ⟨hunit, hpiece⟩ := codeUnit?_control char.toNat hcontrol
    rw [Char.ofNat_toNat] at hpiece
    change readQuote ('\\' :: 'u' :: '0' :: '0' :: Nat.digitChar (char.toNat / 16) ::
      Nat.digitChar (char.toNat % 16) :: rest) = _
    rw [readQuote, hunit]
    dsimp only
    rw [hpiece]
  · exact readQuote_plain hquote hbackslash hcontrol rest

/-- A complete string of characters. -/
def Quote.Plain (quote : Quote) : Prop := ∃ text : List Char, quote = ⟨text.map .char, none⟩

theorem Quote.plain_ofString (text : String) : (Quote.ofString text).Plain := ⟨text.toList, rfl⟩

/-- A string that is written is read as it was, from behind its opening quotation mark. -/
theorem readQuote_append {quote : Quote} (hplain : quote.Plain) (rest : List Char) :
    readQuote (quote.pieces.flatMap Piece.chars ++ '"' :: rest) = (quote, rest) := by
  obtain ⟨text, rfl⟩ := hplain
  induction text with
  | nil => rfl
  | cons char text ih =>
    dsimp only at ih ⊢
    rw [List.map_cons, List.flatMap_cons, List.append_assoc]
    change readQuote (escapedChar char ++ _) = _
    rw [readQuote_escapedChar, ih]
    rfl

/-! ### Documents -/

mutual

/-- A value that is complete and written as values are. -/
def Node.Written : Node → Prop
  | .null | .boolean _ => True
  | .number literal => literal.Written
  | .string quote => quote.Plain
  | .array items => items.Written
  | .object members => members.Written
  | .broken _ => False

/-- Items that are complete and written as values are. -/
def Items.Written : Items → Prop
  | .done stop => stop = none
  | .item first rest => first.Written ∧ rest.Written

/-- Members that are complete and written as values are. -/
def Members.Written : Members → Prop
  | .done stop => stop = none
  | .member key value rest => key.Plain ∧ value.Written ∧ rest.Written

end

/-- The text of a value begins with a character that is neither white space nor a bracket that
closes. -/
theorem Node.Written.exists_chars {node : Node} (hwritten : node.Written) :
    ∃ char more, node.chars = char :: more ∧ isSpace char = false ∧ char ≠ ']' := by
  cases node with
  | null | string | array | object => exact ⟨_, _, rfl, by decide, by decide⟩
  | boolean value => cases value <;> exact ⟨_, _, rfl, by decide, by decide⟩
  | number literal =>
    obtain ⟨first, more, hwhole, -⟩ := Literal.Written.whole hwritten
    have hdigit : ∀ digit : Digit,
        isSpace (Nat.digitChar digit.val) = false ∧ Nat.digitChar digit.val ≠ ']' := by decide
    rw [Node.chars, Literal.chars_eq, hwhole]
    cases literal.negative with
    | true => exact ⟨_, _, rfl, by decide, by decide⟩
    | false => exact ⟨_, _, rfl, hdigit first⟩
  | broken => exact hwritten.elim

theorem skipSpace_cons {char : Char} (hchar : isSpace char = false) (rest : List Char) :
    skipSpace (char :: rest) = char :: rest := List.dropWhile_cons_of_neg (by simp [hchar])

theorem Items.afterValue (items : Items) (rest : List Char) :
    AfterValue (items.chars false ++ rest) := by
  cases items with
  | done => exact Or.inr (Or.inl rfl)
  | item => exact Or.inl rfl

theorem Members.afterValue (members : Members) (rest : List Char) :
    AfterValue (members.chars false ++ rest) := by
  cases members with
  | done => exact Or.inr (Or.inr rfl)
  | member => exact Or.inl rfl

/-- An item is read at the beginning of an array, or after a comma. -/
theorem readItems_of_char {char : Char} (hspace : isSpace char = false) (hbracket : char ≠ ']')
    (first : Bool) (depth : Nat) (rest : List Char) :
    readItems (depth + 1) first ((if first then [] else [',']) ++ char :: rest) =
      readItem depth (char :: rest) := by
  cases first with
  | true =>
    change readItems (depth + 1) true (char :: rest) = _
    rw [readItems, skipSpace_cons hspace]
    split
    · next heq => cases heq
    · next heq => exact absurd (List.cons.inj heq).1 hbracket
    · next heq =>
      obtain ⟨rfl, rfl⟩ := List.cons.inj heq
      rfl
  | false =>
    change readItems (depth + 1) false (',' :: char :: rest) = _
    rw [readItems, skipSpace_cons (by decide)]
    split
    · next heq => cases heq
    · next heq => exact absurd (List.cons.inj heq).1 (by decide)
    · next heq =>
      obtain ⟨rfl, rfl⟩ := List.cons.inj heq
      rw [if_neg Bool.false_ne_true, if_pos rfl, skipSpace_cons hspace]
      split
      · next heq => exact absurd (List.cons.inj heq).1 hbracket
      · rfl

/-- A member is read at the beginning of an object, or after a comma. -/
theorem readMembers_of_quote (first : Bool) (depth : Nat) (rest : List Char) :
    readMembers (depth + 1) first ((if first then [] else [',']) ++ '"' :: rest) =
      readMember depth ('"' :: rest) := by
  cases first with
  | true => rfl
  | false => rfl

theorem Items.length_chars_pos (items : Items) : 0 < (items.chars false).length := by
  cases items <;> simp [Items.chars]

theorem Members.length_chars_pos (members : Members) : 0 < (members.chars false).length := by
  cases members <;> simp [Members.chars]

mutual

/-- A value that is written is read as it was, if the depth is enough for its text. -/
theorem readNode_append : ∀ {node : Node}, node.Written → ∀ {depth : Nat},
    3 * node.chars.length ≤ depth → ∀ {rest : List Char}, AfterValue rest →
    readNode depth (node.chars ++ rest) = (node, rest)
  | .null, _, depth + 1, _, rest, _ => rfl
  | .boolean true, _, depth + 1, _, rest, _ => rfl
  | .boolean false, _, depth + 1, _, rest, _ => rfl
  | .number literal, hwritten, depth + 1, _, rest, hrest => readNode_number hwritten depth hrest
  | .string quote, hwritten, depth + 1, _, rest, _ => by
    have hchars : (Node.string quote).chars ++ rest =
        '"' :: (quote.pieces.flatMap Piece.chars ++ '"' :: rest) := by
      simp [Node.chars, Quote.chars]
    rw [hchars]
    exact congrArg (fun read ↦ (Node.string read.1, read.2)) (readQuote_append hwritten rest)
  | .array items, hwritten, depth + 1, hdepth, rest, _ => by
    have hitems : readItems depth true (items.chars true ++ rest) = (items, rest) :=
      readItems_append hwritten (by rw [Node.chars, List.length_cons] at hdepth; omega) rest
    exact congrArg (fun read ↦ (Node.array read.1, read.2)) hitems
  | .object members, hwritten, depth + 1, hdepth, rest, _ => by
    have hmembers : readMembers depth true (members.chars true ++ rest) = (members, rest) :=
      readMembers_append hwritten (by rw [Node.chars, List.length_cons] at hdepth; omega) rest
    exact congrArg (fun read ↦ (Node.object read.1, read.2)) hmembers
  | .broken _, hwritten, _, _, _, _ => hwritten.elim
  | node, hwritten, 0, hdepth, _, _ => by
    obtain ⟨char, more, hchars, -⟩ := hwritten.exists_chars
    rw [hchars] at hdepth
    simp at hdepth

/-- Items that are written are read as they were. -/
theorem readItems_append : ∀ {items : Items}, items.Written →
    ∀ {first : Bool} {depth : Nat}, 3 * (items.chars first).length ≤ depth → ∀ (rest : List Char),
    readItems depth first (items.chars first ++ rest) = (items, rest)
  | .done _, rfl, first, depth, hdepth, rest => by
    obtain ⟨depth, rfl⟩ : ∃ less, depth = less + 1 := ⟨depth - 1, by
      simp [Items.chars] at hdepth
      omega⟩
    rfl
  | .item node items, ⟨hnode, hitems⟩, first, depth, hdepth, rest => by
    obtain ⟨char, more, hchars, hspace, hbracket⟩ := hnode.exists_chars
    have hpositive := items.length_chars_pos
    rw [Items.chars, List.length_append, List.length_append] at hdepth
    have hlength : node.chars.length = more.length + 1 := congrArg List.length hchars
    obtain ⟨depth, rfl⟩ : ∃ less, depth = less + 2 := ⟨depth - 2, by omega⟩
    have hfirst : readNode depth (node.chars ++ (items.chars false ++ rest)) =
        (node, items.chars false ++ rest) :=
      readNode_append hnode (by omega) (items.afterValue rest)
    have hrest : readItems depth false (items.chars false ++ rest) = (items, rest) :=
      readItems_append hitems (by omega) rest
    rw [Items.chars, List.append_assoc, List.append_assoc, hchars, List.cons_append,
      readItems_of_char hspace hbracket, ← List.cons_append, ← hchars, readItem, hfirst]
    exact congrArg (fun read ↦ (Items.item node read.1, read.2)) hrest

/-- Members that are written are read as they were. -/
theorem readMembers_append : ∀ {members : Members}, members.Written →
    ∀ {first : Bool} {depth : Nat}, 3 * (members.chars first).length ≤ depth → ∀ (rest : List Char),
    readMembers depth first (members.chars first ++ rest) = (members, rest)
  | .done _, rfl, first, depth, hdepth, rest => by
    obtain ⟨depth, rfl⟩ : ∃ less, depth = less + 1 := ⟨depth - 1, by
      simp [Members.chars] at hdepth
      omega⟩
    rfl
  | .member key node members, ⟨hkey, hnode, hmembers⟩, first, depth, hdepth, rest => by
    have hchars : (Members.member key node members).chars first ++ rest =
        (if first then [] else [',']) ++ '"' :: (key.pieces.flatMap Piece.chars ++
          '"' :: ':' :: (node.chars ++ (members.chars false ++ rest))) := by
      simp [Members.chars, Quote.chars]
    have hpositive := members.length_chars_pos
    simp only [Members.chars, List.length_append, List.length_cons] at hdepth
    obtain ⟨depth, rfl⟩ : ∃ less, depth = less + 2 := ⟨depth - 2, by omega⟩
    have hvalue : readNode depth (node.chars ++ (members.chars false ++ rest)) =
        (node, members.chars false ++ rest) :=
      readNode_append hnode (by omega) (members.afterValue rest)
    have hrest : readMembers depth false (members.chars false ++ rest) = (members, rest) :=
      readMembers_append hmembers (by omega) rest
    rw [hchars, readMembers_of_quote, readMember]
    dsimp only
    rw [readQuote_append hkey, skipSpace_cons (by decide)]
    change (let (value, rest) := readNode depth (node.chars ++ (members.chars false ++ rest))
      let (members, rest) := readMembers depth false rest
      (Members.member key value members, rest)) = _
    rw [hvalue]
    exact congrArg (fun read ↦ (Members.member key node read.1, read.2)) hrest

end

/-- The document of the text of a value is the value. -/
theorem Document.ofString_chars {node : Node} (hwritten : node.Written) :
    Document.ofString (String.ofList node.chars) = ⟨node, true⟩ := by
  have hread : readNode (3 * node.chars.length + 3) node.chars = (node, []) := by
    have hread : readNode (3 * node.chars.length + 3) (node.chars ++ []) = (node, []) :=
      readNode_append hwritten (Nat.le_add_right _ 3) trivial
    rwa [List.append_nil] at hread
  unfold ofString
  rw [String.toList_ofList]
  dsimp only
  rw [hread]
  rfl

/-- What a codec has written reaches it again. -/
theorem Codec.ofText_toText {τ : Type} (codec : Codec τ) {value : τ}
    (hwritten : (codec.write value).Written) :
    codec.ofText (codec.toText value) = codec.read (codec.write value) := by
  unfold ofText toText readDocument
  rw [Document.ofString_chars hwritten]
  dsimp only
  cases codec.read (codec.write value) <;> rfl

end LabelledMap.Json
