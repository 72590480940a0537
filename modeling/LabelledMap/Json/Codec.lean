import LabelledMap.Json.Fault
import LabelledMap.Json.Reader
import LabelledMap.Text.Dictionary

/-!
# Codecs

A codec reads values of one type from JSON documents and writes them. Reading goes through a
document from left to right and reports the first fault, so that a value of the wrong shape is
reported even where the text is malformed further on; where a value is not looked at, only breaks in
it count.

Records are read from objects, in which the order of members is free and members with unknown names
are passed over, or from arrays, in which the fields follow each other in order. A record is made by
putting fields one after the other into a value to start from. An optional field that is missing
keeps its value there, and a required one is a fault; in an object that is known once it is closed.
-/

set_option autoImplicit false

namespace LabelledMap.Json

/-! ### Passing over values -/

/-- The fault at the end of a list of items or members, if it does not end properly. -/
def endFault (stop : Option Break) : Except Fault Unit :=
  match stop with
  | none => .ok ()
  | some reason => .error reason.fault

/-- A list that is passed over has to end properly. -/
def skipEnd (stop : Option Break) : Except Fault Unit :=
  match stop with
  | none => .ok ()
  | some reason => .error reason.skippedFault

mutual

/-- Passes over a value: only breaks in it are faults. -/
def Node.skip : Node → Except Fault Unit
  | .null | .boolean _ | .number _ => .ok ()
  | .string quote => skipEnd quote.stop
  | .array items => items.skip
  | .object members => members.skip
  | .broken reason => .error reason.skippedFault

/-- Passes over items. -/
def Items.skip : Items → Except Fault Unit
  | .done stop => skipEnd stop
  | .item first rest => first.skip.bind fun _ ↦ rest.skip

/-- Passes over members. -/
def Members.skip : Members → Except Fault Unit
  | .done stop => skipEnd stop
  | .member key value rest =>
    (skipEnd key.stop).bind fun _ ↦ value.skip.bind fun _ ↦ rest.skip

end

/-! ### Strings and other values -/

/-- The character of two code units that make up a pair. -/
def pairedChar (leading trailing : Nat) : Char :=
  Char.ofNat (0x10000 + leading * 1024 + trailing)

/-- The characters of pieces. The first half of a pair has to be followed by the second; if the
string breaks off in between, it is the break that counts. -/
def joinPieces (stop : Option Break) : List Piece → Except Fault (List Char)
  | [] => (endFault stop).map fun _ ↦ []
  | .char char :: rest => (joinPieces stop rest).map (char :: ·)
  | .leading leading :: .trailing trailing :: rest =>
    (joinPieces stop rest).map (pairedChar leading trailing :: ·)
  | [.leading _] =>
    match stop with
    | none => .error .malformed
    | some reason => .error reason.fault
  | .leading _ :: _ => .error .malformed
  | .trailing _ :: _ => .error .malformed

/-- The text of a string. -/
def Quote.text (quote : Quote) : Except Fault String :=
  (joinPieces quote.stop quote.pieces).map String.ofList

variable {α : Type} [Scalar α]

/-- The value of a number that is looked at. -/
def Literal.value (literal : Literal) : Except Fault α :=
  match (literal.value? : Option α) with
  | some value => .ok value
  | none => .error .malformed

section Found

variable (α) [Legible α]

/-- What a number is, when something else is wanted. -/
def Literal.found (literal : Literal) : Except Fault Found :=
  match literal.integer? with
  | some value => .ok (.integer value)
  | none => (literal.value : Except Fault α).map fun value ↦ .floating (Legible.shortest .even value)

/-- The fault of a value that is not what is wanted. -/
def Node.mismatch (node : Node) (wanted : Wanted) : Fault :=
  let found : Except Fault Found := match node with
    | .null => .ok .null
    | .boolean value => .ok (.boolean value)
    | .number literal => literal.found α
    | .string quote => quote.text.map .string
    | .array _ => .ok .sequence
    | .object _ => .ok .map
    | .broken reason => .error reason.fault
  match found with
  | .ok found => .wrongType found wanted
  | .error fault => fault

end Found

/-! ### Codecs -/

/-- How values of a type are read from a document and written. -/
structure Codec (τ : Type) where
  read : Node → Except Fault τ
  write : τ → Node

namespace Codec

section Values

variable (α) [Legible α]

/-- Numbers. An integer is a number too. -/
def float : Codec α where
  read
    | .number literal => literal.value
    | node => .error (node.mismatch α .float)
  write value :=
    match Literal.ofNumeral? (Legible.shortest .even value) with
    | some literal => .number literal
    | none => .null

def boolean : Codec Bool where
  read
    | .boolean value => .ok value
    | node => .error (node.mismatch α .boolean)
  write := .boolean

def string : Codec String where
  read
    | .string quote => quote.text
    | node => .error (node.mismatch α .string)
  write text := .string (.ofString text)

/-- Integers from `low` to `high`, as values of another type. -/
def integer {τ : Type} (wanted : Wanted) (low high : Int) (ofInt : Int → τ) (toInt : τ → Int) :
    Codec τ where
  read
    | .number literal =>
      match literal.integer? with
      | some value =>
        if low ≤ value && value ≤ high then .ok (ofInt value)
        else .error (.outOfRange value wanted)
      | none => .error (Node.mismatch α (.number literal) wanted)
    | node => .error (node.mismatch α wanted)
  write value := .number (.ofInt (toInt value))

/-- Integers of 32 bits with a sign. -/
def int32 : Codec Int32 :=
  integer α .int32 (-2147483648) 2147483647 Int32.ofInt Int32.toInt

/-- Integers of 64 bits without a sign. -/
def uint64 : Codec UInt64 :=
  integer α .uint64 0 18446744073709551615 (fun value ↦ UInt64.ofNat value.toNat)
    (fun value ↦ value.toNat)

/-- A value or null. -/
def optional {τ : Type} (codec : Codec τ) : Codec (Option τ) where
  read
    | .null => .ok none
    | node => (codec.read node).map some
  write
    | none => .null
    | some value => codec.write value

/-- Reads every item. -/
def readItems {τ : Type} (read : Node → Except Fault τ) : Items → Except Fault (List τ)
  | .done stop => (endFault stop).map fun _ ↦ []
  | .item first rest => do
    let value ← read first
    let values ← readItems read rest
    return value :: values

/-- Lists, from arrays. -/
def list {τ : Type} (codec : Codec τ) : Codec (List τ) where
  read
    | .array items => readItems codec.read items
    | node => .error (node.mismatch α .sequence)
  write values := .array (.ofList (values.map codec.write))

/-- Reads every member into a dictionary; the last value of a key counts. -/
def readEntries {τ : Type} (read : Node → Except Fault τ) (dictionary : Dictionary τ) :
    Members → Except Fault (Dictionary τ)
  | .done stop => (endFault stop).map fun _ ↦ dictionary
  | .member key node rest => do
    let key ← key.text
    let value ← read node
    readEntries read (dictionary.insert key value) rest

/-- Dictionaries, from objects. -/
def dictionary {τ : Type} (codec : Codec τ) : Codec (Dictionary τ) where
  read
    | .object members => readEntries codec.read ∅ members
    | node => .error (node.mismatch α .map)
  write values :=
    .object (.ofList (values.entries.map fun (key, value) ↦ (.ofString key, codec.write value)))

end Values

end Codec

/-! ### Records -/

/-- A field of a record of type `ρ`: how it is read into a record, and how it is written. -/
structure Field (ρ : Type) where
  name : String
  required : Bool
  read : Node → ρ → Except Fault ρ
  write : ρ → Node

/-- A field with a codec of its own. -/
def Field.of {ρ τ : Type} (name : String) (required : Bool) (codec : Codec τ) (get : ρ → τ)
    (set : τ → ρ → ρ) : Field ρ where
  name
  required
  read node record := (codec.read node).map fun value ↦ set value record
  write record := codec.write (get record)

/-- A record with its fields in order. -/
structure Record (ρ : Type) where
  name : String
  fields : List (Field ρ)

namespace Record

variable {ρ : Type}

/-- Reads fields from items in the order of the fields; `index` counts those read before. -/
def readItems (record : Record ρ) : List (Field ρ) → Nat → Items → ρ → Except Fault ρ
  | [], _, .done stop, value => (endFault stop).map fun _ ↦ value
  | [], _, .item _ _, _ => .error .malformed
  | field :: fields, index, .item first rest, value =>
    (field.read first value).bind (readItems record fields (index + 1) rest)
  | _ :: _, _, .done (some reason), _ => .error reason.fault
  | field :: fields, index, .done none, value =>
    if field.required then
      .error (.wrongLength index (.fields record.name record.fields.length))
    else readItems record fields (index + 1) (.done none) value

/-- Reads fields from members in any order; `seen` are the names of those read before. -/
def readMembers (record : Record ρ) : Members → List String → ρ → Except Fault ρ
  | .done (some reason), _, _ => .error reason.fault
  | .done none, seen, value =>
    match record.fields.find? (fun field ↦ field.required && !seen.contains field.name) with
    | some field => .error (.missingField field.name)
    | none => .ok value
  | .member key node rest, seen, value =>
    key.text.bind fun name ↦
      match record.fields.find? (·.name == name) with
      | none => node.skip.bind fun _ ↦ readMembers record rest seen value
      | some field =>
        if seen.contains name then .error (.duplicateField name)
        else (field.read node value).bind (readMembers record rest (name :: seen))

/-- Reads a record, starting from a value for the fields that are missing. -/
def readInto (α : Type) [Scalar α] [Legible α] (record : Record ρ) (start : ρ) :
    Node → Except Fault ρ
  | .array items => record.readItems record.fields 0 items start
  | .object members => record.readMembers members [] start
  | node => .error (node.mismatch α (.record record.name))

/-- Writes a record as an object with the fields in order. -/
def write (record : Record ρ) (value : ρ) : Node :=
  .object (.ofList (record.fields.map fun field ↦ (.ofString field.name, field.write value)))

/-- The codec of a record. -/
def codec (α : Type) [Scalar α] [Legible α] (record : Record ρ) (start : ρ) : Codec ρ where
  read := record.readInto α start
  write := record.write

end Record

/-- Reads a whole document. -/
def Codec.readDocument {τ : Type} (codec : Codec τ) (document : Document) : Except Fault τ :=
  (codec.read document.root).bind fun value ↦
    if document.ended then .ok value else .error .malformed

/-- Reads a text. -/
def Codec.ofText {τ : Type} (codec : Codec τ) (text : String) : Except Fault τ :=
  codec.readDocument (.ofString text)

end LabelledMap.Json
