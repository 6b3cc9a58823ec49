import XmlRecords.Document.Address
import XmlRecords.XPath.Syntax

/-! # The nodes on an axis

The nodes that an axis leads to from a node, the nearest first: in document order for the axes that
lead forwards, in reverse for the others. An attribute has a parent, but neither children nor
siblings.

The nodes are collected from one node to the next. Those below a node are found with a stack of
nodes that are still to be visited, those above it from parent to parent, and siblings by a scan of
the children of the parent, which stops at the node itself. How two nodes are told to be the same is
left open for the scans (`Axis.nodesBy`).
-/

namespace XmlRecords

namespace XPath

/-- The parent of a node; the root has none. -/
def parentOf (node : Address) : Option Address :=
  if node.isEmpty then none else some node.dropLast

/-- Visits the nodes on a stack, whose top is its last one, and all below them. The top gives way to
its children, of which the first comes on top. No more than `limit` nodes are visited. -/
def walkDown (document : Document) : (limit : Nat) → (stack : List Address) → List Address
  | 0, _ => []
  | limit + 1, stack =>
      match stack.getLast? with
      | none => []
      | some current =>
          current ::
            walkDown document limit (stack.dropLast ++ (document.childrenOf current).reverse)

/-- The nodes below a node. -/
def nodesBelow (document : Document) (node : Address) : List Address :=
  walkDown document (document.countBelow node) (document.childrenOf node).reverse

/-- Visits a node, its parent, and so on up to the root. No more than `limit` nodes are visited. -/
def walkUp : (limit : Nat) → (current : Option Address) → List Address
  | _, none => []
  | 0, some _ => []
  | limit + 1, some current => current :: walkUp limit (parentOf current)

/-- The nodes above a node, the parent first. -/
def nodesAbove (node : Address) : List Address :=
  walkUp node.length (parentOf node)

/-- The parent whose children are the siblings of a node. Attributes are no children of theirs. -/
def siblingParent (document : Document) (node : Address) : Option Address :=
  if document.kindAt? node = some .attr then none else parentOf node

section Siblings

variable (same : Address → Address → Bool) (document : Document) (node : Address)

/-- The siblings behind a node: the children of its parent from the node on, without the node. -/
def followingSiblings : List Address :=
  match siblingParent document node with
  | none => []
  | some above => ((document.childrenOf above).dropWhile fun other => !same other node).drop 1

/-- The siblings before a node, the nearest first: the children of its parent up to the node. -/
def precedingSiblings : List Address :=
  match siblingParent document node with
  | none => []
  | some above => ((document.childrenOf above).takeWhile fun other => !same other node).reverse

/-- The nodes that an axis leads to, the nearest first, if nodes are the same by a given test. -/
def Axis.nodesBy (axis : Axis) : List Address :=
  match axis with
  | child => document.childrenOf node
  | attr => document.attributesOf node
  | self => [node]
  | parent => (parentOf node).toList
  | descendant => nodesBelow document node
  | descendantOrSelf => node :: nodesBelow document node
  | ancestor => nodesAbove node
  | ancestorOrSelf => node :: nodesAbove node
  | followingSibling => followingSiblings same document node
  | precedingSibling => precedingSiblings same document node

end Siblings

/-- The nodes that an axis leads to, the nearest first. -/
def Axis.nodes (axis : Axis) (document : Document) (node : Address) : List Address :=
  axis.nodesBy (fun first second => decide (first = second)) document node

end XPath

end XmlRecords
