import XmlRecords.Record

/-! # JSON

The values of JSON. Numbers are integers or doubles, and an object is a list of named values, in
which a name may occur more than once as it is read.
-/

namespace XmlRecords

/-- A JSON value. -/
inductive Json where
  | null
  | boolean (truth : Bool)
  | integer (number : Int)
  | real (number : Float)
  | string (content : String)
  | list (items : List Json)
  | object (fields : List (String × Json))

namespace Json

mutual

/-- The value with each name once in every object: at the place where it comes first, and with the
value that comes last. -/
def unified : Json → Json
  | null => null
  | boolean truth => boolean truth
  | integer number => integer number
  | real number => real number
  | string content => string content
  | list items => list (unifiedItems items)
  | object fields => object (Record.ofList (unifiedFields fields))

/-- The items of a list, each with every name once. -/
def unifiedItems : List Json → List Json
  | [] => []
  | item :: items => unified item :: unifiedItems items

/-- The fields of an object, the value of each with every name once. -/
def unifiedFields : List (String × Json) → List (String × Json)
  | [] => []
  | (name, value) :: fields => (name, unified value) :: unifiedFields fields

end

end Json

end XmlRecords
