import XmlRecords.Calendar.Resolution
import XmlRecords.Document.Address
import XmlRecords.Duration.Reading
import XmlRecords.Schema.Error
import XmlRecords.Text.Lenient
import XmlRecords.Value.Basic

/-! # Conversion of nodes

The text of a node becomes a value of the type of its field. A field may have values that stand in
where no node is found, or where the node has no text.
-/

namespace XmlRecords

/-- What a field converts its nodes to, with the format it needs for that. -/
inductive Conversion where
  | text
  | integer
  | real
  | duration (format : Duration.Format)
  | dateTime (pattern : String)
  | void

/-- The values that stand in for those of nodes. -/
structure Fallback where
  /-- For the value of a node that is not found. -/
  missing : Option Value
  /-- For the value of a node without text. -/
  empty : Option Value

namespace Fallback

/-- No value stands in for another. -/
def none : Fallback :=
  ⟨.none, .none⟩

end Fallback

namespace Conversion

/-- The conversion to a type, if the format that it needs is there. -/
def ofType (type : FieldType) (format : Option String) : Except BindingError Conversion :=
  match type, format with
  | .text, _ => .ok text
  | .integer, _ => .ok integer
  | .real, _ => .ok real
  | .void, _ => .ok void
  | .duration, some source => .ok (duration (Duration.Format.compile source))
  | .dateTime, some pattern => .ok (dateTime pattern)
  | .duration, none => .error (.missingFormat .duration)
  | .dateTime, none => .error (.missingFormat .dateTime)

/-- The type that is converted to. -/
def type : Conversion → FieldType
  | text => .text
  | integer => .integer
  | real => .real
  | duration _ => .duration
  | dateTime _ => .dateTime
  | void => .void

/-- The value of a node without text. -/
def emptyValue : Conversion → Value
  | text => .text ""
  | _ => .null

/-- The value of a text that is not empty. -/
def convert (conversion : Conversion) (content : String) : Except BindingError Value :=
  match conversion with
  | text => .ok (.text content)
  | integer => .ok (.integer (Lenient.integer content))
  | real => .ok (.real (Lenient.real content))
  | duration format =>
      match format.read content with
      | .ok length => .ok (.duration length)
      | .error cause => .error (.duration cause)
  | dateTime pattern =>
      match Calendar.DateTime.read pattern content with
      | .ok point => .ok (.dateTime point)
      | .error fault => .error (.dateTime content pattern fault)
  | void => .ok (.markup content)

/-- The value of the text of a node that may not be there. -/
def convertText (conversion : Conversion) (fallback : Fallback) :
    Option String → Except BindingError Value
  | none => .ok (fallback.missing.getD .null)
  | some content =>
      if content.isEmpty then
        .ok (fallback.empty.getD conversion.emptyValue)
      else
        conversion.convert content

/-- The value of a node that may not be there. No value stands in for the source of a node. -/
def convertNode (conversion : Conversion) (fallback : Fallback) (document : Document)
    (node : Option Address) : Except BindingError Value :=
  match conversion with
  | void => .ok ((node.map fun address => .markup (document.markupAt address)).getD .null)
  | _ => conversion.convertText fallback (node.map document.textAt)

end Conversion

end XmlRecords
