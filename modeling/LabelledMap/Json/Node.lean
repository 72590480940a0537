/-!
# JSON documents

A JSON text is read from left to right, and whoever wants a value of some shape from it may be done
with it before the text turns out to be malformed further on. So a document is kept as far as it can
be read. A `Node` is a value of the document; `Node.broken` stands where no value can be read, and
the list of items, the list of members and the pieces of a string each end either properly or with
a `Break`. Whatever comes after a break is not part of the document.
-/

set_option autoImplicit false

namespace LabelledMap.Json

/-- Why reading stops. -/
inductive Break where
  /-- The text is not JSON here. -/
  | malformed
  /-- The text ends inside a value. -/
  | unfinished
  /-- The text ends inside a number. -/
  | unfinishedNumber
deriving DecidableEq

/-- A decimal digit. -/
abbrev Digit := Fin 10

/-- The digit zero. -/
def Digit.zero : Digit := ⟨0, by decide⟩

/-- A number as it is written. -/
structure Literal where
  negative : Bool
  whole : List Digit
  /-- The digits after the point, none where there is no point. -/
  fraction : List Digit
  /-- The power of ten, with the sign of its exponent, where one is written. -/
  exponent : Option (Bool × List Digit)
deriving DecidableEq

/-- A character of a string, or one of the code units that only make up a character in pairs. -/
inductive Piece where
  | char (char : Char)
  /-- The first half of a pair, by its ten bits. -/
  | leading (bits : Nat)
  /-- The second half of a pair, by its ten bits. -/
  | trailing (bits : Nat)
deriving DecidableEq

/-- A string with its pieces up to the closing quotation mark, or to where reading stops. -/
structure Quote where
  pieces : List Piece
  stop : Option Break
deriving DecidableEq

mutual

/-- A value as far as it can be read. -/
inductive Node where
  | null
  | boolean (value : Bool)
  | number (literal : Literal)
  | string (quote : Quote)
  | array (items : Items)
  | object (members : Members)
  | broken (reason : Break)

/-- The items of an array. -/
inductive Items where
  | done (stop : Option Break)
  | item (first : Node) (rest : Items)

/-- The members of an object. -/
inductive Members where
  | done (stop : Option Break)
  | member (key : Quote) (value : Node) (rest : Members)

end

/-- A text as a value and what comes after it. -/
structure Document where
  root : Node
  /-- Whether nothing but white space follows. -/
  ended : Bool

/-- The items of a complete array. -/
def Items.ofList : List Node → Items
  | [] => .done none
  | node :: rest => .item node (ofList rest)

/-- The members of a complete object. -/
def Members.ofList : List (Quote × Node) → Members
  | [] => .done none
  | (key, value) :: rest => .member key value (ofList rest)

/-- A complete string. -/
def Quote.ofString (text : String) : Quote := ⟨text.toList.map .char, none⟩

end LabelledMap.Json
