/-! # Documents

A document is a tree of elements, text, comments and processing instructions under a root. Names
are local names. Every node keeps its markup, the piece of source text that it was read from.
-/

namespace XmlRecords

/-- An attribute of an element. -/
structure Attribute where
  name : String
  value : String
deriving DecidableEq

/-- A node below the root. -/
inductive Node where
  | element (name : String) (attributes : List Attribute) (children : List Node) (markup : String)
  | text (content markup : String)
  | comment (content markup : String)
  | instruction (target content markup : String)

/-- A document, with the whole source text as markup of its root. -/
structure Document where
  children : List Node
  markup : String

/-- The kinds of things in a document. -/
inductive Kind where
  | root
  | element
  | attr
  | text
  | comment
  | instruction
deriving DecidableEq

/-- Anything that a document holds, the document itself being its root. -/
inductive Item where
  | root (document : Document)
  | node (node : Node)
  | attr (attr : Attribute)

namespace Attribute

/-- An attribute as it could stand in a start tag; its value is not escaped. -/
def markup (attr : Attribute) : String :=
  attr.name ++ "=\"" ++ attr.value ++ "\""

end Attribute

namespace Node

mutual

/-- The text that a node adds to the text of the element it stands in: all text inside an element,
and nothing for comments and instructions. -/
def innerText : Node → String
  | element _ _ children _ => innerTextOfAll children
  | text content _ => content
  | comment _ _ => ""
  | instruction _ _ _ => ""

/-- The inner texts of a list of nodes, one behind the other. -/
def innerTextOfAll : List Node → String
  | [] => ""
  | node :: nodes => node.innerText ++ innerTextOfAll nodes

end

mutual

/-- How many nodes a node is made of: itself and all below it, attributes apart. -/
def size : Node → Nat
  | element _ _ children _ => sizeOfAll children + 1
  | text _ _ => 1
  | comment _ _ => 1
  | instruction _ _ _ => 1

/-- How many nodes a list of nodes is made of. -/
def sizeOfAll : List Node → Nat
  | [] => 0
  | node :: nodes => node.size + sizeOfAll nodes

end

/-- The text of a node: all text inside an element, and what any other node holds. -/
def stringValue : Node → String
  | element _ _ children _ => innerTextOfAll children
  | text content _ => content
  | comment content _ => content
  | instruction _ content _ => content

/-- The kind of a node. -/
def kind : Node → Kind
  | element _ _ _ _ => .element
  | text _ _ => .text
  | comment _ _ => .comment
  | instruction _ _ _ => .instruction

/-- The name of an element, or the target of an instruction. -/
def name? : Node → Option String
  | element name _ _ _ => some name
  | instruction target _ _ => some target
  | _ => none

/-- The children of an element; other nodes have none. -/
def children : Node → List Node
  | element _ _ children _ => children
  | _ => []

/-- The attributes of an element; other nodes have none. -/
def attributes : Node → List Attribute
  | element _ attributes _ _ => attributes
  | _ => []

/-- The piece of source text of a node. -/
def markup : Node → String
  | element _ _ _ markup => markup
  | text _ markup => markup
  | comment _ markup => markup
  | instruction _ _ markup => markup

end Node

namespace Item

/-- The kind of an item. -/
def kind : Item → Kind
  | root _ => .root
  | node inner => inner.kind
  | attr _ => .attr

/-- The name of an element or attribute, or the target of an instruction. -/
def name? : Item → Option String
  | root _ => none
  | node inner => inner.name?
  | attr entry => some entry.name

/-- The text of an item: all text in the document or element, the value of an attribute, and what
any other node holds. -/
def stringValue : Item → String
  | root document => Node.innerTextOfAll document.children
  | node inner => inner.stringValue
  | attr entry => entry.value

/-- The markup of an item. -/
def markup : Item → String
  | root document => document.markup
  | node inner => inner.markup
  | attr entry => entry.markup

/-- The children of an item. -/
def children : Item → List Node
  | root document => document.children
  | node inner => inner.children
  | attr _ => []

/-- The attributes of an item. -/
def attributes : Item → List Attribute
  | node inner => inner.attributes
  | _ => []

end Item

end XmlRecords
