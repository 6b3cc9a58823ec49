import XmlRecords.Json.Reading
import XmlRecords.Mapping.Basic

/-! # Reading mappings

A mapping, and every node in it, is a JSON object with fields of fixed names, or a list of the
values of these fields in order. Fields that may be missing may also be missing at the end of the
list. An unknown or repeated field is refused.
-/

namespace XmlRecords

namespace Mapping

/-- The fields of a mapping, in order. -/
def mappingFields : List String :=
  ["context", "nodes"]

/-- The fields of a node, in order. -/
def nodeFields : List String :=
  ["name", "type", "xpath", "element", "attribute", "self", "array", "format", "default",
    "default_empty", "private", "local_context", "nodes", "value"]

/-- Every field is one of the known ones, and none is repeated. -/
def areFields (known : List String) (fields : List (String × Json)) : Bool :=
  let names := fields.map Prod.fst
  names.all known.contains && decide names.Nodup

/-- Gives the names of fields to the values of a list, which is not longer than there are names. -/
def named? (names : List String) (items : List Json) : Option (List (String × Json)) :=
  if items.length ≤ names.length then some (names.zip items) else none

/-- A string. -/
def string? : Json → Option String
  | .string content => some content
  | _ => none

/-- A truth value. -/
def boolean? : Json → Option Bool
  | .boolean truth => some truth
  | _ => none

/-- A tag. -/
def tag? : Json → Option TagSetting
  | .boolean isOwn => some (.flag isOwn)
  | .string name => some (.name name)
  | _ => none

/-- A value that may be null instead. -/
def orNull? (read : Json → Option α) : Json → Option (Option α)
  | .null => some none
  | value => (read value).map some

/-- Any value, each name in it once. -/
def present? (value : Json) : Option (Option Json) :=
  some (some value.unified)

/-- Reads the field of a name, or takes the value for a missing field. -/
def field? (fields : List (String × Json)) (name : String) (missing : α)
    (read : Json → Option α) : Option α :=
  match Record.get? name fields with
  | none => some missing
  | some value => read value

/-- What the fields of a node say about it. -/
def settings? (fields : List (String × Json)) : Option Settings :=
  if areFields nodeFields fields then do
    return {
      name := ← string? (← Record.get? "name" fields)
      type := ← field? fields "type" "text" string?
      xpath := ← field? fields "xpath" none (orNull? string?)
      element := ← field? fields "element" none (orNull? tag?)
      attr := ← field? fields "attribute" none (orNull? tag?)
      isSelf := ← field? fields "self" false boolean?
      isArray := ← field? fields "array" false boolean?
      format := ← field? fields "format" none (orNull? string?)
      missing := ← field? fields "default" none present?
      empty := ← field? fields "default_empty" none present?
      isPrivate := ← field? fields "private" false boolean?
      context := ← field? fields "local_context" none (orNull? string?)
      value := ← field? fields "value" none present? }
  else
    none

mutual

/-- A node. -/
def node? : Json → Option NodeMapping
  | .object fields => do return .mk (← settings? fields) (← nodesAmong fields)
  | .list items => do
      return .mk (← settings? (← named? nodeFields items)) (← nodesAt nodeFields items)
  | _ => none

/-- A list of nodes. -/
def nodes? : Json → Option (List NodeMapping)
  | .list items => nodesOf items
  | _ => none

/-- The nodes that the items of a list are. -/
def nodesOf : List Json → Option (List NodeMapping)
  | [] => some []
  | item :: items => do return (← node? item) :: (← nodesOf items)

/-- The nodes among the fields of an object; none if they are missing. -/
def nodesAmong : List (String × Json) → Option (List NodeMapping)
  | [] => some []
  | (name, value) :: fields => if name = "nodes" then nodes? value else nodesAmong fields

/-- The nodes among the values of fields with these names; none if they are missing. -/
def nodesAt : List String → List Json → Option (List NodeMapping)
  | name :: names, value :: values =>
      if name = "nodes" then nodes? value else nodesAt names values
  | _, _ => some []

end

/-- The mapping of the fields of an object. -/
def ofFields? (fields : List (String × Json)) : Option Mapping :=
  if areFields mappingFields fields then do
    return ⟨← field? fields "context" none (orNull? string?), ← field? fields "nodes" [] nodes?⟩
  else
    none

/-- The mapping that a JSON value is. -/
def ofJson? : Json → Option Mapping
  | .object fields => ofFields? fields
  | .list items => do ofFields? (← named? mappingFields items)
  | _ => none

/-- The mapping that a text is. -/
def parse? (source : String) : Option Mapping := do
  ofJson? (← Json.parse? source)

end Mapping

end XmlRecords
