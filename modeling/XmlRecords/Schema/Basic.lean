import XmlRecords.Schema.Selector

/-! # Schemas

A schema says what the fields of a record are, in order. Fields are read from nodes, hold a record
of their own, are constants, or are computed from the other fields.
-/

namespace XmlRecords

/-- What can be seen of the records while they are put together: the record so far, private fields
included, and those of the schemas around it, the nearest first. -/
structure Scope where
  record : Record Value
  enclosing : List (Record Value)

namespace Scope

/-- The scope around a scope. -/
def parent? (scope : Scope) : Option Scope :=
  match scope.enclosing with
  | [] => none
  | record :: enclosing => some ⟨record, enclosing⟩

/-- The value of a field in the record of the scope. -/
def get? (scope : Scope) (name : String) : Option Value :=
  Record.get? name scope.record

end Scope

/-- Changes the value of a field, by what is seen when it has been evaluated. -/
abbrev Transform :=
  Value → Scope → Value

mutual

/-- The fields of a record, and the nodes of a document that they are read from. -/
inductive Schema where
  | mk (context : Option XPath.Expression) (fields : List Field)

/-- A field of a record. Private fields are evaluated, but are not in the record at the end. -/
inductive Field where
  | mk (name : String) (isPrivate : Bool) (transform : Option Transform) (binding : Binding)

/-- Where the value of a field comes from. -/
inductive Binding where
  | typed (selector : Selector) (conversion : Conversion) (fallback : Fallback)
  /-- A record, or a list of records, by a schema of its own. -/
  | child (selector : Selector) (schema : Schema)
  | constant (value : Value)
  /-- A value that is computed from all other fields. -/
  | method (compute : Scope → Value)

end

namespace Field

/-- The name of a field. -/
def name : Field → String
  | mk name _ _ _ => name

/-- The field is not in the record at the end. -/
def isPrivate : Field → Bool
  | mk _ isPrivate _ _ => isPrivate

end Field

namespace Schema

/-- The expression that finds the nodes of a document from which fields are read; the root when
there is none. -/
def context : Schema → Option XPath.Expression
  | mk context _ => context

/-- The fields of a schema. -/
def fields : Schema → List Field
  | mk _ fields => fields

/-- The names of the fields that are in the record at the end, in order. -/
def publicNames (schema : Schema) : List String :=
  (schema.fields.filter fun field => !field.isPrivate).map Field.name

end Schema

end XmlRecords
