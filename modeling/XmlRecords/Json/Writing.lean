import XmlRecords.Binary64.Layout
import XmlRecords.Json.Basic
import XmlRecords.Text.Hexadecimal
import XmlRecords.Text.Numeral

/-! # Writing JSON

Two forms of text: one without white space, and one with a line for every item, indented by two
spaces for every level.
-/

namespace XmlRecords

namespace Json

/-- One character of a string. Only quotes, backslashes and control characters are written as
escapes. -/
def escapedChar (char : Char) : List Char :=
  match char with
  | '"' => ['\\', '"']
  | '\\' => ['\\', '\\']
  | '\x08' => ['\\', 'b']
  | '\x0c' => ['\\', 'f']
  | '\n' => ['\\', 'n']
  | '\r' => ['\\', 'r']
  | '\t' => ['\\', 't']
  | _ =>
      if char.toNat < 0x20 then
        let digits := Hexadecimal.digits char.toNat
        '\\' :: 'u' :: (List.replicate (4 - digits.length) '0' ++ digits)
      else
        [char]

/-- A string in quotes. -/
def stringText (content : String) : String :=
  String.ofList ('"' :: (content.toList.flatMap escapedChar ++ ['"']))

/-- A double; those that are not finite are `null`. -/
def realText (number : Float) : String :=
  match Binary64.Layout.interchange.finite? number with
  | some digits => String.ofList digits
  | none => "null"

/-- A truth value. -/
def booleanText : Bool → String
  | true => "true"
  | false => "false"

/-- A list of items that are written already. -/
def listText (items : List String) : String :=
  "[" ++ ",".intercalate items ++ "]"

/-- An object of fields whose values are written already. -/
def objectText (fields : List (String × String)) : String :=
  "\x7b" ++ ",".intercalate (fields.map fun (name, value) => stringText name ++ ":" ++ value)
    ++ "\x7d"

mutual

/-- A value without white space. -/
def compact : Json → String
  | null => "null"
  | boolean truth => booleanText truth
  | integer number => Numeral.signedText number
  | real number => realText number
  | string content => stringText content
  | list items => listText (compactItems items)
  | object fields => objectText (compactFields fields)

/-- The items of a list without white space. -/
def compactItems : List Json → List String
  | [] => []
  | item :: items => compact item :: compactItems items

/-- The fields of an object, their values without white space. -/
def compactFields : List (String × Json) → List (String × String)
  | [] => []
  | (name, value) :: fields => (name, compact value) :: compactFields fields

end

/-- A new line at a level. -/
def lineBreak (level : Nat) : String :=
  "\n" ++ String.ofList (List.replicate (2 * level) ' ')

/-- Lines within brackets at a level; none if there are no lines. -/
def block (opening closing : String) (level : Nat) (lines : List String) : String :=
  if lines.isEmpty then
    opening ++ closing
  else
    opening ++ lineBreak (level + 1) ++ ("," ++ lineBreak (level + 1)).intercalate lines
      ++ lineBreak level ++ closing

mutual

/-- A value at a level, with a line for every item. -/
def indented (level : Nat) : Json → String
  | null => "null"
  | boolean truth => booleanText truth
  | integer number => Numeral.signedText number
  | real number => realText number
  | string content => stringText content
  | list items => block "[" "]" level (indentedItems (level + 1) items)
  | object fields => block "\x7b" "\x7d" level (indentedFields (level + 1) fields)

/-- The items of a list at a level. -/
def indentedItems (level : Nat) : List Json → List String
  | [] => []
  | item :: items => indented level item :: indentedItems level items

/-- The fields of an object at a level. -/
def indentedFields (level : Nat) : List (String × Json) → List String
  | [] => []
  | (name, value) :: fields =>
      (stringText name ++ ": " ++ indented level value) :: indentedFields level fields

end

/-- A value with a line for every item. -/
def pretty (value : Json) : String :=
  value.indented 0

end Json

end XmlRecords
