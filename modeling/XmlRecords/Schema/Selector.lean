import XmlRecords.Schema.Conversion
import XmlRecords.Schema.Location
import XmlRecords.XPath.Evaluation
import XmlRecords.XPath.Grammar

/-! # Selectors

A selector finds the nodes of a field, starting from a list of nodes: those that its expression
selects from any of them, in document order.
-/

namespace XmlRecords

/-- Where the nodes of a field are, as expressions. -/
structure Selector where
  path : XPath.Expression
  /-- The nodes from which the path starts, if these are not the given ones. -/
  context : Option XPath.Expression
  /-- All nodes are meant, and not only the first one. -/
  isArray : Bool

namespace Selector

/-- The expression of a field. -/
def parsePath (field source : String) : Except BindingError XPath.Expression :=
  (XPath.Expression.parse source).mapError (BindingError.expression field)

/-- The selector of a field at a location. -/
def compile (field : String) (location : Location) : Except BindingError Selector := do
  let path ← parsePath field (location.path field)
  match location.context with
  | none => return ⟨path, none, location.isArray⟩
  | some source => return ⟨path, some (← parsePath field source), location.isArray⟩

/-- The nodes that an expression selects from any of a list of nodes. What it selects from one node
is in order already. -/
def selectFrom (path : XPath.Expression) (document : Document) (nodes : List Address) :
    Except BindingError (List Address) := do
  let found ← (XPath.collect (fun node => path.select document node []) nodes).mapError
    BindingError.evaluation
  return if 1 < nodes.length then Address.inOrder found else found

/-- The nodes that a selector finds from a list of nodes. -/
def select (selector : Selector) (document : Document) (nodes : List Address) :
    Except BindingError (List Address) := do
  match selector.context with
  | none => selectFrom selector.path document nodes
  | some context => selectFrom selector.path document (← selectFrom context document nodes)

/-- The value at the nodes that a selector finds: a list of all, or the first one. -/
def evaluate (selector : Selector) (document : Document) (conversion : Conversion)
    (fallback : Fallback) (nodes : List Address) : Except BindingError Value := do
  let found ← selector.select document nodes
  if selector.isArray then
    return .list (← found.mapM fun node => conversion.convertNode fallback document (some node))
  else
    conversion.convertNode fallback document found.head?

end Selector

end XmlRecords
