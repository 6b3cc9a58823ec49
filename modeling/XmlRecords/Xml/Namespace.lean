import XmlRecords.Document.Basic
import XmlRecords.Xml.Syntax

/-! # Namespaces

Start tags declare prefixes for namespaces. The prefixes of elements and attributes have to be
declared, and an element may not have two attributes of one name in one namespace. Beyond that,
namespaces do not count: only local names are kept.
-/

namespace XmlRecords

namespace Xml

/-- The namespace of the prefix `xml`. -/
def xmlNamespace : String :=
  "http://www.w3.org/XML/1998/namespace"

/-- The namespace of declarations, which may not be declared. -/
def declarationNamespace : String :=
  "http://www.w3.org/2000/xmlns/"

/-- The prefixes in scope with their namespaces, the innermost first. -/
abbrev Scope :=
  List (String × String)

/-- What start tags have assigned, for the next element. -/
structure Pending where
  /-- The prefixes that are declared. -/
  declared : Scope
  /-- The attributes with their prefixes. -/
  attributes : List (String × Attribute)

/-- The namespace of an attribute, none without a prefix; the prefix has to be in scope. -/
def namespaceOf? (scope : Scope) (qualifier : String) : Option (Option String) :=
  if qualifier = "" then
    some none
  else if qualifier = "xml" then
    some (some xmlNamespace)
  else
    (scope.lookup qualifier).map some

/-- No member of a list comes twice. -/
def allDistinct [BEq α] : List α → Bool
  | [] => true
  | value :: values => !values.contains value && allDistinct values

namespace Pending

/-- Nothing is assigned. -/
def empty : Pending :=
  ⟨[], []⟩

/-- Adds the declaration of a prefix. Reserved namespaces are refused, and a prefix that is declared
twice; the prefix `xml` may be declared, which changes nothing. -/
def declare (pending : Pending) (qualifier uri : String) : Option Pending :=
  if uri = declarationNamespace || (qualifier = "xml") != (uri = xmlNamespace) then
    none
  else if qualifier = "xml" then
    some pending
  else if pending.declared.any fun (other, _) => other = qualifier then
    none
  else
    some { pending with declared := (qualifier, uri) :: pending.declared }

/-- Adds an assignment. The namespace of names without a prefix does not count, but it may not be a
reserved one. -/
def assign (pending : Pending) (target : QualifiedName) (value : String) : Option Pending :=
  if target.qualifier = "xmlns" then
    pending.declare target.name value
  else if target.name = "xmlns" then
    if value = declarationNamespace || value = xmlNamespace then none else some pending
  else
    some { pending with
      attributes := pending.attributes ++ [(target.qualifier, ⟨target.name, value⟩)] }

/-- The prefixes that are in scope for the next element. -/
def scope (pending : Pending) (outer : Scope) : Scope :=
  pending.declared ++ outer

/-- The attributes of the next element: their prefixes have to be in scope, and no two may have the
same name in the same namespace. -/
def resolve (pending : Pending) (outer : Scope) : Option (List Attribute) := do
  let names ← pending.attributes.mapM fun (qualifier, entry) => do
    return (← namespaceOf? (pending.scope outer) qualifier, entry.name)
  guard (allDistinct names)
  return pending.attributes.map Prod.snd

end Pending

end Xml

end XmlRecords
