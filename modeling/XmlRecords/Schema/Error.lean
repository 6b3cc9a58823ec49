import XmlRecords.Calendar.Fields
import XmlRecords.Duration.Error
import XmlRecords.Schema.FieldType
import XmlRecords.XPath.Error

/-! # Why a schema is not built or a document not bound -/

namespace XmlRecords

/-- A reason for which a schema is not built, or a document not bound to it. -/
inductive BindingError where
  /-- The document is not well-formed XML. -/
  | malformedDocument
  /-- The mapping is not JSON of the right form. -/
  | malformedMapping
  /-- An expression has no value, or one that is not a node-set. -/
  | evaluation (cause : XPath.Error)
  /-- The expression of a field, or of the context, is none. -/
  | expression (field : String) (cause : XPath.Error)
  | duration (cause : DurationError)
  | dateTime (text pattern : String) (fault : Calendar.Fault)
  | missingFormat (type : FieldType)
  | unknownType (name : String)
  | repeatedField (name : String)
  | missingValue (field : String)

/-- The wording of an error. -/
def BindingError.message : BindingError → String
  | .malformedDocument => "XML parsing failed"
  | .malformedMapping => "JSON error"
  | .evaluation cause => "XPath evaluation failed: " ++ cause.message
  | .expression field cause => "Invalid XPath for node '" ++ field ++ "': " ++ cause.message
  | .duration cause => "Duration parsing failed: " ++ cause.message
  | .dateTime text pattern fault =>
      "Cannot parse '" ++ text ++ "' as a date/time with format '" ++ pattern ++ "': "
        ++ fault.message
  | .missingFormat type => "Please provide a format option to " ++ type.name ++ " nodes."
  | .unknownType name => "Cannot create node with unknown node type '" ++ name ++ "'."
  | .repeatedField name => "Node '" ++ name ++ "' is defined more than once"
  | .missingValue field =>
      "Invalid mapping configuration: constant node '" ++ field ++ "' has no value"

end XmlRecords
