import XmlRecords.Binary64.Layout
import XmlRecords.Calendar.DateTime
import XmlRecords.Duration.Basic
import XmlRecords.Json.Basic
import XmlRecords.Json.Writing

/-! # Values

The values that records are made of, and the JSON that stands for them. JSON has no durations, no
points in time and no markup, so it says less than a value does: a duration becomes its seconds, and
a point in time and markup become their text.
-/

namespace XmlRecords

/-- A value of a field. -/
inductive Value where
  | null
  | boolean (truth : Bool)
  | text (content : String)
  | integer (number : Int64)
  | real (number : Float)
  | duration (length : Duration)
  | dateTime (point : Calendar.DateTime)
  /-- The source of a node, as it is. -/
  | markup (source : String)
  | list (items : List Value)
  | record (fields : List (String × Value))

namespace Value

/-- The value is null. -/
def isNull : Value → Bool
  | null => true
  | _ => false

/-- The text of a text or markup. -/
def asText? : Value → Option String
  | text content => some content
  | markup source => some source
  | _ => none

/-- The number of an integer. -/
def asInteger? : Value → Option Int64
  | integer number => some number
  | _ => none

/-- The number of an integer or a double; an integer becomes the nearest double. -/
def asReal? : Value → Option Float
  | real number => some number
  | integer number => some (Binary64.ofInt number.toInt)
  | _ => none

/-- The length of a duration. -/
def asDuration? : Value → Option Duration
  | duration length => some length
  | _ => none

/-- The items of a list. -/
def asList? : Value → Option (List Value)
  | list items => some items
  | _ => none

/-- The fields of a record. -/
def asRecord? : Value → Option (Record Value)
  | record fields => some fields
  | _ => none

mutual

/-- The JSON that stands for a value. Doubles that are not finite become null. -/
def toJson : Value → Json
  | null => .null
  | boolean truth => .boolean truth
  | text content => .string content
  | integer number => .integer number.toInt
  | real number => if Binary64.isFinite number then .real number else .null
  | duration length => .integer length.totalSeconds.toNat
  | dateTime point => .string point.text
  | markup source => .string source
  | list items => .list (itemsToJson items)
  | record fields => .object (fieldsToJson fields)

/-- The JSON that stands for the items of a list. -/
def itemsToJson : List Value → List Json
  | [] => []
  | item :: items => toJson item :: itemsToJson items

/-- The JSON that stands for the fields of a record. -/
def fieldsToJson : List (String × Value) → List (String × Json)
  | [] => []
  | (name, value) :: fields => (name, toJson value) :: fieldsToJson fields

end

/-- The value of an integer: an integer if it fits 64 bits with a sign, else the nearest double. -/
def ofInteger (number : Int) : Value :=
  if Int64.minValue.toInt ≤ number ∧ number ≤ Int64.maxValue.toInt then
    integer (Int64.ofInt number)
  else
    real (Binary64.ofInt number)

mutual

/-- The value that JSON stands for. -/
def ofJson : Json → Value
  | .null => null
  | .boolean truth => boolean truth
  | .integer number => ofInteger number
  | .real number => real number
  | .string content => text content
  | .list items => list (itemsOfJson items)
  | .object fields => record (Record.ofList (fieldsOfJson fields))

/-- The values that the items of a list stand for. -/
def itemsOfJson : List Json → List Value
  | [] => []
  | item :: items => ofJson item :: itemsOfJson items

/-- The values that the fields of an object stand for. -/
def fieldsOfJson : List (String × Json) → List (String × Value)
  | [] => []
  | (name, value) :: fields => (name, ofJson value) :: fieldsOfJson fields

end

/-- The value as a text for people. Lists and records are shown as JSON. -/
def display : Value → String
  | null => "null"
  | boolean truth => Json.booleanText truth
  | text content => content
  | integer number => Numeral.signedText number.toInt
  | real number => Binary64.Layout.plain.text number
  | duration length => length.text
  | dateTime point => point.text
  | markup source => source
  | list items => (list items).toJson.compact
  | record fields => (record fields).toJson.compact

end Value

end XmlRecords
