/-! # The types of fields -/

namespace XmlRecords

/-- What the text of a node is converted to. -/
inductive FieldType where
  | text
  | integer
  | real
  | duration
  | dateTime
  /-- No conversion: the source of the node is kept. -/
  | void
deriving DecidableEq

namespace FieldType

/-- All types of fields. -/
def all : List FieldType :=
  [text, integer, real, duration, dateTime, void]

/-- The name of a type. -/
def name : FieldType → String
  | text => "text"
  | integer => "integer"
  | real => "float"
  | duration => "duration"
  | dateTime => "date_time"
  | void => "void"

/-- The type of a name. -/
def ofName? (given : String) : Option FieldType :=
  all.find? fun type => type.name = given

/-- A field of the type needs a format. -/
def requiresFormat : FieldType → Bool
  | duration => true
  | dateTime => true
  | _ => false

end FieldType

end XmlRecords
