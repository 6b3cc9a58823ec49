import XmlRecords.Value.Basic

/-! # Encodings

An encoding says how the parts of a value are written, of which there are fewer kinds than of
values. A value is written by any encoding in the same way: a duration as its seconds, and points in
time and markup as text. Two encodings are given: one builds JSON, and one writes its text at once.
-/

namespace XmlRecords

/-- How values are written; lists and objects are given their parts written already. -/
structure Encoding (α : Type) where
  null : α
  boolean : Bool → α
  signed : Int64 → α
  unsigned : UInt64 → α
  real : Float → α
  string : String → α
  list : List α → α
  object : List (String × α) → α

namespace Encoding

/-- The encoding that builds JSON. It has no doubles that are not finite. -/
def json : Encoding Json where
  null := .null
  boolean := .boolean
  signed := fun number => .integer number.toInt
  unsigned := fun number => .integer number.toNat
  real := fun number => if Binary64.isFinite number then .real number else .null
  string := .string
  list := .list
  object := .object

/-- The encoding that writes JSON without white space. -/
def compactText : Encoding String where
  null := "null"
  boolean := Json.booleanText
  signed := fun number => Numeral.signedText number.toInt
  unsigned := fun number => Numeral.text number.toNat
  real := Json.realText
  string := Json.stringText
  list := Json.listText
  object := Json.objectText

end Encoding

namespace Value

mutual

/-- Writes a value by an encoding. -/
def encode (encoding : Encoding α) : Value → α
  | null => encoding.null
  | boolean truth => encoding.boolean truth
  | text content => encoding.string content
  | integer number => encoding.signed number
  | real number => encoding.real number
  | duration length => encoding.unsigned length.totalSeconds
  | dateTime point => encoding.string point.text
  | markup source => encoding.string source
  | list items => encoding.list (encodeItems encoding items)
  | record fields => encoding.object (encodeFields encoding fields)

/-- Writes the items of a list by an encoding. -/
def encodeItems (encoding : Encoding α) : List Value → List α
  | [] => []
  | item :: items => encode encoding item :: encodeItems encoding items

/-- Writes the values of a record by an encoding. -/
def encodeFields (encoding : Encoding α) : List (String × Value) → List (String × α)
  | [] => []
  | (name, value) :: fields => (name, encode encoding value) :: encodeFields encoding fields

end

end Value

end XmlRecords
