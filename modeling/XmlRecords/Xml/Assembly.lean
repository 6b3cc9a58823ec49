import XmlRecords.Xml.Namespace

/-! # Putting a document together

The nodes of a document come one after another, and each becomes the last node of the innermost
element that is open. Pieces of text that come one after another become one node, with the markup of
the first. What a start tag has assigned is kept until the next element begins or ends.
-/

namespace XmlRecords

namespace Xml

/-- An element whose content is not complete. -/
structure OpenElement where
  name : QualifiedName
  attributes : List Attribute
  /-- The prefixes in scope inside of the element. -/
  scope : Scope
  /-- The place in the document where the start tag begins. -/
  start : Nat
  /-- The nodes before the element, the last first. -/
  before : List Node

/-- A document that is not complete. -/
structure Assembly where
  /-- The nodes of the innermost open element so far, the last first. -/
  nodes : List Node
  /-- The open elements, the innermost first. -/
  opened : List OpenElement
  /-- The pieces of the text that comes last, the last first; further pieces join them. -/
  pieces : List String
  pending : Pending
  /-- A start tag has come in the text that is read. Before it, no end tag may come. -/
  hasStarted : Bool
  /-- How many references may still be resolved. -/
  budget : Nat

namespace Assembly

/-- Nothing has come yet. -/
def empty : Assembly :=
  ⟨[], [], [], .empty, false, 0⟩

/-- The prefixes in scope. -/
def scope (assembly : Assembly) : Scope :=
  match assembly.opened with
  | [] => []
  | element :: _ => element.scope

/-- Adds a piece of text. -/
def addText (assembly : Assembly) (content markup : String) : Assembly :=
  if assembly.pieces.isEmpty then
    { assembly with nodes := .text content markup :: assembly.nodes, pieces := [content] }
  else
    { assembly with pieces := content :: assembly.pieces }

/-- Puts the pieces of the text that comes last together: no further piece joins them. -/
def endText (assembly : Assembly) : Assembly :=
  match assembly.pieces, assembly.nodes with
  | _ :: _, .text _ markup :: nodes =>
      { assembly with
        nodes := .text (String.join assembly.pieces.reverse) markup :: nodes
        pieces := [] }
  | _, _ => { assembly with pieces := [] }

/-- Adds a node other than text. -/
def addNode (assembly : Assembly) (node : Node) : Assembly :=
  let assembly := assembly.endText
  { assembly with nodes := node :: assembly.nodes }

/-- Begins a start tag. -/
def beginTag (assembly : Assembly) : Assembly :=
  { assembly.endText with hasStarted := true }

/-- Adds an assignment of a start tag. -/
def assign (assembly : Assembly) (target : QualifiedName) (value : String) : Option Assembly := do
  return { assembly with pending := ← assembly.pending.assign target value }

/-- Ends the start tag of an element. The prefix of its name has to be in scope. -/
def openElement (source : Array Char) (name : QualifiedName) (ending : TagEnd) (span : Span)
    (assembly : Assembly) : Option Assembly := do
  if ending = .missing then
    return assembly
  else
    let scope := assembly.pending.scope assembly.scope
    let attributes ← assembly.pending.resolve assembly.scope
    guard (name.qualifier = "" || (scope.lookup name.qualifier).isSome)
    let assembly := { assembly with pending := .empty }
    if ending = .closed then
      return assembly.addNode (.element name.name attributes [] (span.markup source))
    else
      return { assembly with
        nodes := []
        opened := ⟨name, attributes, scope, span.start, assembly.nodes⟩ :: assembly.opened }

/-- Ends the innermost open element, which has to have the name of the end tag. Assignments that no
element has taken are lost, but have to be right. -/
def closeElement (source : Array Char) (name : QualifiedName) (span : Span)
    (assembly : Assembly) : Option Assembly := do
  let assembly := assembly.endText
  match assembly.opened with
  | [] => none
  | element :: opened =>
      guard (assembly.hasStarted && element.name = name)
      let _ ← assembly.pending.resolve element.scope
      let node := Node.element name.name element.attributes assembly.nodes.reverse
        (Span.markup source ⟨element.start, span.stop⟩)
      return { assembly with nodes := node :: element.before, opened := opened, pending := .empty }

/-- The nodes of the root, when no element is open and there is one among them. -/
def finish? (assembly : Assembly) : Option (List Node) :=
  if assembly.opened.isEmpty && assembly.nodes.any fun node => node.kind = .element then
    some assembly.nodes.reverse
  else
    none

end Assembly

end Xml

end XmlRecords
