import XmlRecords.Text.Singular

/-! # Where fields are found

A field is found by an expression, which is derived from the name of the field when none is given.
-/

namespace XmlRecords

/-- The name that a node is found by. -/
inductive Tag where
  /-- The name of the field; its singular when the field holds a list. -/
  | ownName
  | named (name : String)
deriving DecidableEq

/-- Where the nodes of a field are found. -/
structure Location where
  /-- The expression, if it is not derived. -/
  xpath : Option String
  /-- The tag of elements. -/
  element : Option Tag
  /-- The tag of attributes. -/
  attr : Option Tag
  /-- The field is at the node itself. -/
  isSelf : Bool
  /-- The field holds a list. -/
  isArray : Bool
  /-- The expression of the nodes from which the field is looked up. -/
  context : Option String

namespace Location

/-- The elements with the name of the field. -/
def default : Location :=
  ⟨none, none, none, false, false, none⟩

/-- The name that a tag stands for, at a field. -/
def tagName (location : Location) (field : String) : Tag → String
  | .named name => name
  | .ownName => if location.isArray then Text.singular field else field

/-- The expression of a field. One that is given comes first, then attributes, the node itself, and
elements. -/
def path (location : Location) (field : String) : String :=
  match location.xpath, location.attr with
  | some given, _ => given
  | none, some tag => "./@" ++ location.tagName field tag
  | none, none =>
      if location.isSelf then
        "."
      else
        "./" ++ location.tagName field (location.element.getD .ownName)

end Location

end XmlRecords
