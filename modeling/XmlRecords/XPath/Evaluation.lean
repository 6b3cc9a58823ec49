import XmlRecords.XPath.Axis
import XmlRecords.XPath.Function
import XmlRecords.XPath.Operator

/-! # Evaluating expressions

A location path is walked step by step. A step collects, for each of the nodes reached so far, the
nodes on its axis that pass its test and its predicates; what all of them collect is put into
document order. Predicates see the nodes on the axis of one node, the nearest first, with their
positions.
-/

namespace XmlRecords

namespace XPath

/-- Joins the lists that a function gives for the members of a list, up to the first error. -/
def collect (find : α → Except ε (List β)) : List α → Except ε (List β)
  | [] => .ok []
  | value :: values => do
      let found ← find value
      let others ← collect find values
      return found ++ others

/-- The node passes a test; names and `*` are for attributes on the attribute axis, and for elements
on all others. -/
def NodeTest.admits (test : NodeTest) (axis : Axis) (document : Document) (node : Address) : Bool :=
  let principal : Kind := if axis = .attr then .attr else .element
  match test with
  | .any => document.kindAt? node = some principal
  | .name expected =>
      document.kindAt? node = some principal && document.nameAt? node = some expected
  | .text => document.kindAt? node = some .text
  | .comment => document.kindAt? node = some .comment
  | .node => true

/-- A predicate of this value keeps the node at a position: a number keeps the position that it
equals. -/
def Value.keeps (position : Nat) : Value → Bool
  | .number real => real == Binary64.ofNat position
  | value => value.toBoolean

mutual

/-- The value of an expression at a focus. -/
def Expression.evaluate (document : Document) (focus : Focus) : Expression → Except Error Value
  | .literal text => .ok (.string text)
  | .number value => .ok (.number value)
  | .path absolute steps => do
      let start := if absolute then focus.root else focus.node
      return .nodes (← Step.walk document focus.root steps [start])
  | .call name arguments => do
      callFunction name document focus (← Expression.evaluateAll document focus arguments)
  | .binary operator left right => do
      let left ← Expression.evaluate document focus left
      match operator.decided? left with
      | some truth => return .boolean truth
      | none =>
          let right ← Expression.evaluate document focus right
          operator.apply document left right
  | .negate operand => do
      let value ← Expression.evaluate document focus operand
      return .number (-(value.toNumber document))

/-- The values of a list of expressions, up to the first error. -/
def Expression.evaluateAll (document : Document) (focus : Focus) :
    List Expression → Except Error (List Value)
  | [] => .ok []
  | expression :: expressions => do
      let value ← Expression.evaluate document focus expression
      let values ← Expression.evaluateAll document focus expressions
      return value :: values

/-- The nodes that steps lead to from a list of nodes. -/
def Step.walk (document : Document) (root : Address) :
    List Step → List Address → Except Error (List Address)
  | [], nodes => .ok nodes
  | step :: steps, nodes => do
      let found ← collect (fun node => Step.nodesFrom document root step node) nodes
      Step.walk document root steps (Address.inOrder found)

/-- The nodes that a step leads to from one node, the nearest first. -/
def Step.nodesFrom (document : Document) (root : Address) :
    Step → Address → Except Error (List Address)
  | .mk axis test predicates, node =>
      Expression.keepAll document root predicates
        ((axis.nodes document node).filter (test.admits axis document))

/-- The nodes of a list that all predicates keep. Each predicate sees the positions in the list that
the predicates before it have left. -/
def Expression.keepAll (document : Document) (root : Address) :
    List Expression → List Address → Except Error (List Address)
  | [], nodes => .ok nodes
  | predicate :: predicates, nodes => do
      let kept ← collect
        (fun (node, index) => do
          let value ← Expression.evaluate document
            { node := node, root := root, position := index + 1, size := nodes.length } predicate
          return if value.keeps (index + 1) then [node] else [])
        nodes.zipIdx
      Expression.keepAll document root predicates kept

end

namespace Expression

/-- The nodes that an expression selects from a context node, in document order. -/
def select (expression : Expression) (document : Document) (node root : Address) :
    Except Error (List Address) := do
  match ← expression.evaluate document { node := node, root := root, position := 1, size := 1 } with
  | .nodes nodes => return nodes
  | value => throw (.resultNotNodes (value.toText document))

/-- The first node that an expression selects. -/
def selectFirst (expression : Expression) (document : Document) (node root : Address) :
    Except Error (Option Address) := do
  return (← expression.select document node root).head?

end Expression

end XPath

end XmlRecords
