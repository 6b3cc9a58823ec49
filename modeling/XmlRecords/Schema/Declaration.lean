import XmlRecords.Schema.Basic

/-! # Building schemas

A schema is declared field by field. Within a context, fields are looked up from the nodes of that
context, unless they have one of their own. All checks are made when the schema is built.
-/

namespace XmlRecords

/-- What a declared field holds. -/
inductive Content where
  | typed (type : FieldType)
  | child (schema : Schema)
  | constant (value : Value)
  | method (compute : Scope → Value)

/-- The options of a field. -/
structure FieldOptions where
  location : Location
  format : Option String
  fallback : Fallback
  isPrivate : Bool
  transform : Option Transform

namespace FieldOptions

/-- A field at the elements of its name, without further options. -/
def default : FieldOptions :=
  ⟨.default, none, .none, false, none⟩

/-- The options with a context, unless they have one. -/
def within (options : FieldOptions) (context : Option String) : FieldOptions :=
  { options with
    location := { options.location with context := options.location.context.or context } }

end FieldOptions

/-- A declared field. -/
structure FieldDeclaration where
  name : String
  content : Content
  options : FieldOptions

/-- A step of a declaration. -/
inductive Declaration where
  /-- The nodes that all fields are read from. -/
  | context (xpath : String)
  | field (declared : FieldDeclaration)
  /-- Declarations within a context. -/
  | within (xpath : String) (body : List Declaration)

/-- What has been declared so far. -/
structure Draft where
  context : Option String
  /-- The context that the next field is declared in. -/
  inner : Option String
  fields : List FieldDeclaration

namespace Draft

/-- Nothing is declared. -/
def empty : Draft :=
  ⟨none, none, []⟩

mutual

/-- The draft after a declaration. Of several contexts of the whole schema the first one counts. -/
def declare : Declaration → Draft → Draft
  | .context xpath, draft => { draft with context := draft.context.or (some xpath) }
  | .field declared, draft =>
      { draft with
        fields := draft.fields ++
          [{ declared with options := declared.options.within draft.inner }] }
  | .within xpath body, draft =>
      { declareAll body { draft with inner := some xpath } with inner := draft.inner }

/-- The draft after declarations, one after another. -/
def declareAll : List Declaration → Draft → Draft
  | [], draft => draft
  | declaration :: declarations, draft => declareAll declarations (declare declaration draft)

end

end Draft

/-- What a declared field is bound to. -/
def FieldDeclaration.bind (declared : FieldDeclaration) : Except BindingError Binding :=
  match declared.content with
  | .typed type => do
      let conversion ← Conversion.ofType type declared.options.format
      let selector ← Selector.compile declared.name declared.options.location
      return .typed selector conversion declared.options.fallback
  | .child schema => do
      return .child (← Selector.compile declared.name declared.options.location) schema
  | .constant value => .ok (.constant value)
  | .method compute => .ok (.method compute)

/-- The fields that are declared, behind fields whose names have been `seen`. -/
def buildFields : (seen : List String) → List FieldDeclaration → Except BindingError (List Field)
  | _, [] => .ok []
  | seen, declared :: others =>
      if seen.contains declared.name then
        .error (.repeatedField declared.name)
      else do
        let binding ← declared.bind
        let field := Field.mk declared.name declared.options.isPrivate declared.options.transform
          binding
        return field :: (← buildFields (declared.name :: seen) others)

/-- The expression of the context of a schema. -/
def buildContext : Option String → Except BindingError (Option XPath.Expression)
  | none => .ok none
  | some source => do return some (← Selector.parsePath "context" source)

namespace Draft

/-- The schema of a draft: the context is checked first, and then the fields in order. -/
def build (draft : Draft) : Except BindingError Schema := do
  let context ← buildContext draft.context
  return .mk context (← buildFields [] draft.fields)

end Draft

/-- The schema that is declared. -/
def Schema.declare (declarations : List Declaration) : Except BindingError Schema :=
  (Draft.declareAll declarations .empty).build

end XmlRecords
