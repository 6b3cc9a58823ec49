import XmlRecords.Schema.Basic
import XmlRecords.Xml.Reading

/-! # Evaluating schemas

The fields of a schema are evaluated in order, each seeing those before it; methods are computed
when all other fields are there. At the end the public fields are taken out, in order.
-/

namespace XmlRecords

namespace Field

/-- Adds the value of a field that is a method, if it is one. -/
def compute (enclosing : List (Record Value)) (record : Record Value) : Field → Record Value
  | mk name _ _ (.method compute) => Record.insert name (compute ⟨record, enclosing⟩) record
  | _ => record

/-- Adds the values of methods. -/
def computeAll (enclosing : List (Record Value)) : Record Value → List Field → Record Value
  | record, [] => record
  | record, field :: fields => computeAll enclosing (field.compute enclosing record) fields

/-- Takes the public fields out of a record, one after another. -/
def takePublic : List Field → Record Value → List (String × Value)
  | [], _ => []
  | field :: fields, record =>
      match field.isPrivate, Record.get? field.name record with
      | false, some value =>
          (field.name, value) :: takePublic fields (Record.remove field.name record)
      | _, _ => takePublic fields record

end Field

/-- Changes a value by a transform, if there is one. -/
def applyTransform (transform : Option Transform) (value : Value) (scope : Scope) : Value :=
  match transform with
  | some change => change value scope
  | none => value

mutual

/-- The record of a schema at a list of nodes, within the records of other schemas. -/
def Schema.evaluate (document : Document) :
    Schema → List Address → List (Record Value) → Except BindingError (Record Value)
  | .mk _ fields, nodes, enclosing => do
      let record ← Field.evaluateAll document fields nodes ⟨[], enclosing⟩
      return Record.ofList (Field.takePublic fields (Field.computeAll enclosing record fields))

/-- Adds the values of fields other than methods to the record of a scope. -/
def Field.evaluateAll (document : Document) :
    List Field → List Address → Scope → Except BindingError (Record Value)
  | [], _, scope => .ok scope.record
  | field :: fields, nodes, scope => do
      let record ← Field.evaluate document field nodes scope
      Field.evaluateAll document fields nodes ⟨record, scope.enclosing⟩

/-- Adds the value of a field to the record of a scope, unless it is a method. -/
def Field.evaluate (document : Document) :
    Field → List Address → Scope → Except BindingError (Record Value)
  | .mk name _ transform binding, nodes, scope => do
      match ← Binding.evaluate document binding nodes scope with
      | some value => return Record.insert name (applyTransform transform value scope) scope.record
      | none => return scope.record

/-- The value that a field is bound to; none of a method. -/
def Binding.evaluate (document : Document) :
    Binding → List Address → Scope → Except BindingError (Option Value)
  | .typed selector conversion fallback, nodes, _ => do
      return some (← selector.evaluate document conversion fallback nodes)
  | .child selector schema, nodes, scope => do
      let found ← selector.select document nodes
      let enclosing := scope.record :: scope.enclosing
      if selector.isArray then
        let records ← found.mapM fun node => Schema.evaluate document schema [node] enclosing
        return some (.list (records.map .record))
      else
        return some (.record (← Schema.evaluate document schema (found.take 1) enclosing))
  | .constant value, _, _ => return some value
  | .method _, _, _ => return none

end

namespace Schema

/-- The nodes of a document from which the fields of a schema are read. -/
def start (schema : Schema) (document : Document) : Except BindingError (List Address) :=
  match schema.context with
  | none => .ok [[]]
  | some path => (path.select document [] []).mapError BindingError.evaluation

/-- The record of a document. -/
def bindDocument (schema : Schema) (document : Document) :
    Except BindingError (Record Value) := do
  schema.evaluate document (← schema.start document) []

/-- The record of the document that a text is. -/
def bind (schema : Schema) (source : String) : Except BindingError (Record Value) :=
  match Document.parse? source with
  | none => .error .malformedDocument
  | some document => schema.bindDocument document

end Schema

end XmlRecords
