import LabelledMap.Json.Number
import LabelledMap.Text.Quoted

/-!
# Faults of JSON documents

Why no value can be made of a document: it is malformed, it ends too early, or a value in it has the
wrong shape. `Fault.message?` says what is wrong with a shape; what is wrong with a malformed
document is not described.
-/

set_option autoImplicit false

namespace LabelledMap.Json

/-- What stands in a document where something else is wanted. -/
inductive Found where
  | null
  | boolean (value : Bool)
  | integer (value : Int)
  | floating (value : Numeral)
  | string (text : String)
  | sequence
  | map

/-- The text of a number that is not an integer. -/
def floatingText (value : Numeral) : String :=
  match Literal.ofNumeral? value with
  | some literal => String.ofList literal.chars
  | none => value.positional

/-- A description of what stands in a document. -/
def Found.text : Found → String
  | null => "null"
  | boolean true => "boolean `true`"
  | boolean false => "boolean `false`"
  | integer value => "integer `" ++ toString value ++ "`"
  | floating value => "floating point `" ++ floatingText value ++ "`"
  | string text => "string " ++ quoted text
  | sequence => "sequence"
  | map => "map"

/-- What is wanted of a value. -/
inductive Wanted where
  | float
  | int32
  | uint64
  | boolean
  | string
  | sequence
  | map
  /-- An object with named fields. -/
  | record (name : String)
  /-- An object of which one field names the variant. -/
  | tagged (name : String)
  /-- The name of a variant. -/
  | variant
  /-- An array with a fixed number of items. -/
  | tuple (length : Nat)

/-- A description of what is wanted. -/
def Wanted.text : Wanted → String
  | float => "f64"
  | int32 => "i32"
  | uint64 => "u64"
  | boolean => "a boolean"
  | string => "a string"
  | sequence => "a sequence"
  | map => "a map"
  | record name => "struct " ++ name
  | tagged name => "internally tagged enum " ++ name
  | variant => "variant identifier"
  | tuple length => "an array of length " ++ toString length

/-- The number of items that an array should have. -/
inductive WantedLength where
  /-- One item for each field of a record. -/
  | fields (name : String) (count : Nat)
  /-- One item for each field of a variant. -/
  | variantFields (name : String) (count : Nat)
  | tuple (length : Nat)
  /-- No items after those that were used. -/
  | used (count : Nat)

/-- A number of items in words. -/
def elements (count : Nat) : String :=
  toString count ++ if count = 1 then " element" else " elements"

/-- A description of the wanted number of items. -/
def WantedLength.text : WantedLength → String
  | fields name count => "struct " ++ name ++ " with " ++ elements count
  | variantFields name count => "struct variant " ++ name ++ " with " ++ elements count
  | tuple length => "an array of length " ++ toString length
  | used count => elements count ++ " in sequence"

/-- Why no value can be made of a document. -/
inductive Fault where
  | malformed
  | unfinished
  | wrongType (found : Found) (wanted : Wanted)
  | outOfRange (value : Int) (wanted : Wanted)
  | wrongLength (length : Nat) (wanted : WantedLength)
  | missingField (name : String)
  | duplicateField (name : String)
  | unknownVariant (name known : String)

/-- What is wrong with the shape of a value. -/
def Fault.message? : Fault → Option String
  | malformed => none
  | unfinished => none
  | wrongType found wanted =>
    some ("invalid type: " ++ found.text ++ ", expected " ++ wanted.text)
  | outOfRange value wanted =>
    some ("invalid value: integer `" ++ toString value ++ "`, expected " ++ wanted.text)
  | wrongLength length wanted =>
    some ("invalid length " ++ toString length ++ ", expected " ++ wanted.text)
  | missingField name => some ("missing field `" ++ name ++ "`")
  | duplicateField name => some ("duplicate field `" ++ name ++ "`")
  | unknownVariant name known =>
    some ("unknown variant `" ++ name ++ "`, expected `" ++ known ++ "`")

/-- The fault of a break where the value is wanted. -/
def Break.fault : Break → Fault
  | malformed => .malformed
  | unfinished => .unfinished
  | unfinishedNumber => .unfinished

/-- The fault of a break where the value is passed over: a number is then looked at one character
at a time, and one that is cut off is malformed. -/
def Break.skippedFault : Break → Fault
  | malformed => .malformed
  | unfinished => .unfinished
  | unfinishedNumber => .malformed

end LabelledMap.Json
