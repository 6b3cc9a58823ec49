import XmlRecords.Mapping.Reading
import XmlRecords.Schema.Declaration
import XmlRecords.Schema.Evaluation

/-! # The schema of a mapping

Nodes of the types `child` and `constant` hold a record of their own and a constant; the other types
are those of fields. The nodes are declared in order, a child with its whole schema, and then the
schema is built.
-/

namespace XmlRecords

namespace Mapping

/-- The tag of a setting, if there is one. -/
def TagSetting.toTag : TagSetting → Option Tag
  | .flag true => some .ownName
  | .flag false => none
  | .name text => some (.named text)

namespace Settings

/-- The options of a node. -/
def options (settings : Settings) : FieldOptions where
  location :=
    { xpath := settings.xpath
      element := settings.element.bind TagSetting.toTag
      attr := settings.attr.bind TagSetting.toTag
      isSelf := settings.isSelf
      isArray := settings.isArray
      context := settings.context }
  format := settings.format
  fallback := ⟨settings.missing.map Value.ofJson, settings.empty.map Value.ofJson⟩
  isPrivate := settings.isPrivate
  transform := none

/-- The declaration of a node that holds a constant. -/
def constant (settings : Settings) : Except BindingError FieldDeclaration :=
  match settings.value with
  | none => .error (.missingValue settings.name)
  | some value =>
      .ok ⟨settings.name, .constant (Value.ofJson value),
        { FieldOptions.default with isPrivate := settings.isPrivate }⟩

/-- The declaration of a node with the name of a type. -/
def typed (settings : Settings) : Except BindingError FieldDeclaration :=
  match FieldType.ofName? settings.type with
  | none => .error (.unknownType settings.type)
  | some type => .ok ⟨settings.name, .typed type, settings.options⟩

end Settings

mutual

/-- The declaration of a node. -/
def NodeMapping.declaration : NodeMapping → Except BindingError FieldDeclaration
  | .mk settings nodes =>
      if settings.type = "child" then do
        let schema ← Schema.declare (← NodeMapping.declarations nodes)
        return ⟨settings.name, .child schema, settings.options⟩
      else if settings.type = "constant" then
        settings.constant
      else
        settings.typed

/-- The declarations of nodes, up to the first that cannot be made. -/
def NodeMapping.declarations : List NodeMapping → Except BindingError (List Declaration)
  | [] => .ok []
  | node :: nodes => do
      let declared ← NodeMapping.declaration node
      return .field declared :: (← NodeMapping.declarations nodes)

end

/-- The schema of a mapping. -/
def build (mapping : Mapping) : Except BindingError Schema := do
  let fields ← NodeMapping.declarations mapping.nodes
  match mapping.context with
  | none => Schema.declare fields
  | some xpath => Schema.declare (.context xpath :: fields)

end Mapping

end XmlRecords
