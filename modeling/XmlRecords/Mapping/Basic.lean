import XmlRecords.Json.Basic

/-! # Mappings

A mapping describes a schema in plain data: the context, and for every node its name, its type and
the options that say where it is found.
-/

namespace XmlRecords

namespace Mapping

/-- A tag in a mapping: a name, or whether the node's own name is taken. -/
inductive TagSetting where
  | flag (isOwn : Bool)
  | name (text : String)
deriving DecidableEq

/-- What a mapping says about a node besides the nodes within it. -/
structure Settings where
  name : String
  type : String
  xpath : Option String
  element : Option TagSetting
  attr : Option TagSetting
  isSelf : Bool
  isArray : Bool
  format : Option String
  missing : Option Json
  empty : Option Json
  isPrivate : Bool
  context : Option String
  /-- The value of a constant. -/
  value : Option Json

/-- A node of a mapping, with the nodes of its own schema. -/
inductive NodeMapping where
  | mk (settings : Settings) (nodes : List NodeMapping)

namespace NodeMapping

/-- What the mapping says about a node. -/
def settings : NodeMapping → Settings
  | mk settings _ => settings

/-- The nodes within a node. -/
def nodes : NodeMapping → List NodeMapping
  | mk _ nodes => nodes

end NodeMapping

end Mapping

/-- A mapping. -/
structure Mapping where
  context : Option String
  nodes : List Mapping.NodeMapping

end XmlRecords
