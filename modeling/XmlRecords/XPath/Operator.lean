import XmlRecords.XPath.Error
import XmlRecords.XPath.Syntax
import XmlRecords.XPath.Value

/-! # Operators

Comparisons look at the truth of the operands if one of them is a truth value, else at their numbers
if one of them is a number, else at their texts; comparisons by order always look at the numbers. A
comparison with a node-set holds if it holds for the text of one of its nodes.
-/

namespace XmlRecords

namespace XPath

/-- Two values that are not node-sets are equal. -/
def equalAtoms (document : Document) (left right : Value) : Bool :=
  match left, right with
  | .boolean _, _ => left.toBoolean == right.toBoolean
  | _, .boolean _ => left.toBoolean == right.toBoolean
  | .number _, _ => left.toNumber document == right.toNumber document
  | _, .number _ => left.toNumber document == right.toNumber document
  | _, _ => left.toText document == right.toText document

/-- A comparison of two values that are not node-sets. -/
def Comparison.holdsForAtoms (comparison : Comparison) (document : Document)
    (left right : Value) : Bool :=
  match comparison with
  | equal => equalAtoms document left right
  | notEqual => !equalAtoms document left right
  | less => decide (left.toNumber document < right.toNumber document)
  | lessOrEqual => decide (left.toNumber document ≤ right.toNumber document)
  | greater => decide (left.toNumber document > right.toNumber document)
  | greaterOrEqual => decide (left.toNumber document ≥ right.toNumber document)

/-- A comparison of any two values. A truth value is compared with the truth of a node-set as a
whole. -/
def Comparison.holds (comparison : Comparison) (document : Document) (left right : Value) : Bool :=
  match left, right with
  | .nodes lefts, .nodes rights =>
      lefts.any fun left => rights.any fun right =>
        comparison.holdsForAtoms document (.string (document.textAt left))
          (.string (document.textAt right))
  | .nodes lefts, .boolean _ =>
      comparison.holdsForAtoms document (.boolean (!lefts.isEmpty)) right
  | .boolean _, .nodes rights =>
      comparison.holdsForAtoms document left (.boolean (!rights.isEmpty))
  | .nodes lefts, _ =>
      lefts.any fun left =>
        comparison.holdsForAtoms document (.string (document.textAt left)) right
  | _, .nodes rights =>
      rights.any fun right =>
        comparison.holdsForAtoms document left (.string (document.textAt right))
  | _, _ => comparison.holdsForAtoms document left right

namespace Operator

/-- The value of `and` and `or` when the left operand alone decides it. -/
def decided? (operator : Operator) (left : Value) : Option Bool :=
  match operator with
  | and => if left.toBoolean then none else some false
  | or => if left.toBoolean then some true else none
  | _ => none

/-- The nodes of two node-sets in document order. -/
def unite (document : Document) (left right : Value) : Except Error Value :=
  match left, right with
  | .nodes lefts, .nodes rights => .ok (.nodes (Address.inOrder (lefts ++ rights)))
  | _, _ => .error (.unionNotNodes (left.toText document) (right.toText document))

/-- The value of an operator for two operands. -/
def apply (operator : Operator) (document : Document) (left right : Value) : Except Error Value :=
  match operator with
  | or => .ok (.boolean (left.toBoolean || right.toBoolean))
  | and => .ok (.boolean (left.toBoolean && right.toBoolean))
  | compare comparison => .ok (.boolean (comparison.holds document left right))
  | plus => .ok (.number (left.toNumber document + right.toNumber document))
  | minus => .ok (.number (left.toNumber document - right.toNumber document))
  | union => unite document left right

end Operator

end XPath

end XmlRecords
