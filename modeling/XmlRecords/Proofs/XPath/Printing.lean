import Mathlib.Algebra.Group.Nat.Defs
import XmlRecords.XPath.Grammar

/-! # Printing XPath expressions

Every expression has an unabbreviated form. Axes are spelled out, binary operators stand between two
spaces, and an operand has parentheses only where it binds looser than its place allows, or equally
loose to the right of an operator.
-/

namespace XmlRecords

namespace XPath

/-- How tightly an operator binds, counted from `or`. Behind addition comes the minus sign, which is
not a binary operator. -/
def Operator.level : Operator → Nat
  | or => 0
  | and => 1
  | compare .equal => 2
  | compare .notEqual => 2
  | compare _ => 3
  | plus => 4
  | minus => 4
  | union => 6

/-- How tightly an expression binds: as its outermost operator does, and tightest without one. -/
def Expression.level : Expression → Nat
  | binary operator _ _ => operator.level
  | negate _ => 5
  | _ => 7

/-- A text, in parentheses where they are needed. -/
def enclosed (needed : Bool) (text : List Char) : List Char :=
  if needed then '(' :: text ++ [')'] else text

/-- The quote around a literal: a single one unless the literal contains it. -/
def quoteOf (content : List Char) : Char :=
  if '\'' ∈ content then '"' else '\''

def quoted (content : List Char) : List Char :=
  quoteOf content :: content ++ [quoteOf content]

def NodeTest.written : NodeTest → List Char
  | name word => word.toList
  | any => ['*']
  | text => "text()".toList
  | comment => "comment()".toList
  | node => "node()".toList

mutual

/-- An expression in unabbreviated form, with parentheses only where they are needed. -/
def Expression.written : Expression → List Char
  | .literal text => quoted text.toList
  | .number value => Numeral.digits ((Binary64.toNat? value).getD 0)
  | .path absolute steps => (if absolute then ['/'] else []) ++ Step.writtenAll steps
  | .call name arguments => name.toList ++ '(' :: Expression.writtenAll arguments ++ [')']
  | .binary operator left right =>
      enclosed (left.level < operator.level) left.written ++
        ' ' :: operator.symbol.toList ++ ' ' ::
          enclosed (right.level ≤ operator.level) right.written
  | .negate operand => '-' :: enclosed (operand.level < 5) operand.written

def Step.written : Step → List Char
  | .mk axis test predicates =>
      axis.name.toList ++ "::".toList ++ test.written ++ Expression.writtenPredicates predicates

def Expression.writtenPredicates : List Expression → List Char
  | [] => []
  | predicate :: predicates =>
      '[' :: predicate.written ++ ']' :: Expression.writtenPredicates predicates

def Expression.writtenAll : List Expression → List Char
  | [] => []
  | first :: others => first.written ++ Expression.writtenNext others

def Expression.writtenNext : List Expression → List Char
  | [] => []
  | argument :: others => ',' :: ' ' :: argument.written ++ Expression.writtenNext others

def Step.writtenAll : List Step → List Char
  | [] => []
  | first :: others => first.written ++ Step.writtenNext others

def Step.writtenNext : List Step → List Char
  | [] => []
  | step :: others => '/' :: step.written ++ Step.writtenNext others

end

/-- A name without a colon. -/
def isName : List Char → Bool
  | [] => false
  | first :: others => isNameStart first && others.all isNameChar

/-- A name with a prefix or without one that a function can have. -/
def isFunctionName (name : String) : Bool :=
  !isNodeType name &&
    match name.toList.span (· != ':') with
    | (whole, []) => isName whole
    | (first, _ :: second) => isName first && isName second

/-- The test does not look for something that is not a name. -/
def NodeTest.isPrintable : NodeTest → Bool
  | name word => isName word.toList
  | _ => true

mutual

/-- The unabbreviated form can be read again: literals leave a quote to put around them, numbers are
natural and below `2 ^ 53`, relative paths have a step, and names are names. -/
def Expression.isPrintable : Expression → Bool
  | .literal text => !(text.toList.contains '\'' && text.toList.contains '"')
  | .number value => (Binary64.toNat? value).any fun number => decide (number < 2 ^ 53)
  | .path absolute steps => (absolute || !steps.isEmpty) && Step.areAllPrintable steps
  | .call name arguments => isFunctionName name && Expression.areAllPrintable arguments
  | .binary _ left right => left.isPrintable && right.isPrintable
  | .negate operand => operand.isPrintable

def Step.isPrintable : Step → Bool
  | .mk _ test predicates => test.isPrintable && Expression.areAllPrintable predicates

def Expression.areAllPrintable : List Expression → Bool
  | [] => true
  | first :: others => first.isPrintable && Expression.areAllPrintable others

def Step.areAllPrintable : List Step → Bool
  | [] => true
  | first :: others => first.isPrintable && Step.areAllPrintable others

end

namespace Expression

/-- An expression as a text, in unabbreviated form. -/
def print (expression : Expression) : String :=
  String.ofList expression.written

end Expression

end XPath

end XmlRecords
