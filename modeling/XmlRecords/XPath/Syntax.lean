/-! # XPath expressions

The syntax of expressions. Location paths consist of steps, and the predicates of a step are
expressions again.
-/

namespace XmlRecords

namespace XPath

/-- The direction of a step. -/
inductive Axis where
  | ancestorOrSelf
  | ancestor
  | attr
  | child
  | descendantOrSelf
  | descendant
  | followingSibling
  | parent
  | precedingSibling
  | self
deriving DecidableEq

namespace Axis

/-- All axes. -/
def all : List Axis :=
  [ancestorOrSelf, ancestor, attr, child, descendantOrSelf, descendant, followingSibling,
    parent, precedingSibling, self]

/-- The name of an axis. -/
def name : Axis → String
  | ancestorOrSelf => "ancestor-or-self"
  | ancestor => "ancestor"
  | attr => "attribute"
  | child => "child"
  | descendantOrSelf => "descendant-or-self"
  | descendant => "descendant"
  | followingSibling => "following-sibling"
  | parent => "parent"
  | precedingSibling => "preceding-sibling"
  | self => "self"

/-- The axis leads backwards: its nodes are counted from the context node towards the start of the
document. -/
def isReverse : Axis → Bool
  | ancestor => true
  | ancestorOrSelf => true
  | precedingSibling => true
  | _ => false

end Axis

/-- What a step looks for on its axis. -/
inductive NodeTest where
  /-- An element or attribute with this local name. -/
  | name (name : String)
  /-- Any element or attribute. -/
  | any
  | text
  | comment
  /-- Any node at all. -/
  | node
deriving DecidableEq

/-- The six comparisons. -/
inductive Comparison where
  | equal
  | notEqual
  | less
  | lessOrEqual
  | greater
  | greaterOrEqual
deriving DecidableEq

/-- The operators with two operands. -/
inductive Operator where
  | or
  | and
  | compare (comparison : Comparison)
  | plus
  | minus
  | union
deriving DecidableEq

namespace Comparison

/-- A comparison as it is written. -/
def symbol : Comparison → String
  | equal => "="
  | notEqual => "!="
  | less => "<"
  | lessOrEqual => "<="
  | greater => ">"
  | greaterOrEqual => ">="

end Comparison

namespace Operator

/-- An operator as it is written. -/
def symbol : Operator → String
  | or => "or"
  | and => "and"
  | compare comparison => comparison.symbol
  | plus => "+"
  | minus => "-"
  | union => "|"

/-- All operators. -/
def all : List Operator :=
  [or, and, compare .equal, compare .notEqual, compare .less, compare .lessOrEqual,
    compare .greater, compare .greaterOrEqual, plus, minus, union]

end Operator

mutual

/-- An expression. -/
inductive Expression where
  | literal (text : String)
  | number (value : Float)
  /-- The steps of a path, from the root if it is absolute. -/
  | path (absolute : Bool) (steps : List Step)
  | call (name : String) (arguments : List Expression)
  | binary (operator : Operator) (left right : Expression)
  | negate (operand : Expression)

/-- A step of a location path. -/
inductive Step where
  | mk (axis : Axis) (test : NodeTest) (predicates : List Expression)

end

namespace Step

/-- The step `.`, the node itself. -/
def here : Step :=
  mk .self .node []

/-- The step `..`, the parent. -/
def up : Step :=
  mk .parent .node []

/-- The step that `//` stands for. -/
def anywhere : Step :=
  mk .descendantOrSelf .node []

end Step

namespace Expression

/-- The expression is a location path. -/
def isPath : Expression → Bool
  | path _ _ => true
  | _ => false

end Expression

end XPath

end XmlRecords
