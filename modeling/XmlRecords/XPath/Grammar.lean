import XmlRecords.Text.Blank
import XmlRecords.XPath.Error
import XmlRecords.XPath.Lexeme

/-! # The grammar of XPath expressions

Readers for expressions, by precedence from the loosest operator to the tightest: `or`, `and`,
equality, order, addition, the minus sign, union, and then paths and what stands for itself. Each of
them takes a reader for the expressions nested in it, in parentheses, brackets or argument lists.
Such an expression is shorter than the text it is nested in, so that a bound on the depth, the
length of the text, closes the recursion.
-/

namespace XmlRecords

namespace XPath

/-- Reads an operator with white space around it, and an operand. -/
def readOperand (operator : Reader Operator) (operand : Reader Expression) :
    Reader (Operator × Expression) := fun text => do
  let (symbol, rest) ← operator (skipSpace text)
  let (right, rest) ← operand (skipSpace rest)
  return ((symbol, right), rest)

/-- Reads operands with operators between them, which group to the left. -/
def readChain (operator : Reader Operator) (operand : Reader Expression) : Reader Expression :=
  fun text => do
    let (first, rest) ← operand text
    let (tail, rest) := many (readOperand operator operand) rest
    return (tail.foldl (fun left (symbol, right) => .binary symbol left right) first, rest)

section Nested

variable (nested : Reader Expression)

/-- Reads an argument behind a comma. -/
def readNextArgument (text : List Char) : Option (Expression × List Char) := do
  nested (← readSpaced "," text)

/-- Reads arguments with commas between them; there may be none. -/
def readArguments (text : List Char) : List Expression × List Char :=
  match nested text with
  | none => ([], text)
  | some (first, rest) =>
      let (others, rest) := many (readNextArgument nested) rest
      (first :: others, rest)

/-- The names of node types, which are not names of functions. -/
def isNodeType (name : String) : Bool :=
  name = "text" || name = "comment" || name = "node"

/-- Reads the call of a function. -/
def readCall (text : List Char) : Option (Expression × List Char) := do
  let (name, rest) ← readFullName text
  let rest ← readSpaced "(" rest
  guard (!isNodeType (String.ofList name))
  let (arguments, rest) := readArguments nested rest
  let rest ← readSpaced ")" rest
  return (.call (String.ofList name) arguments, rest)

/-- Reads an expression in parentheses. -/
def readGroup (text : List Char) : Option (Expression × List Char) := do
  let (content, rest) ← nested (← readSpaced "(" text)
  let rest ← readSpaced ")" rest
  return (content, rest)

/-- Reads a predicate in brackets. -/
def readPredicate (text : List Char) : Option (Expression × List Char) := do
  let (content, rest) ← nested (← readSpaced "[" text)
  let rest ← readSpaced "]" rest
  return (content, rest)

/-- Reads the axis and the node test of a step. -/
def readAxisTest (text : List Char) : Option ((Axis × NodeTest) × List Char) :=
  (do let (test, rest) ← readNodeTest (← readSymbol "@" text)
      return ((.attr, test), rest))
    <|> (do let (axis, rest) ← readAxis text
            let (test, rest) ← readNodeTest rest
            return ((axis, test), rest))
    <|> (do let (test, rest) ← readNodeTest text
            return ((.child, test), rest))

/-- Reads a step with its predicates; `.` and `..` take none. -/
def readStep (text : List Char) : Option (Step × List Char) :=
  (readSymbol ".." text).map (Step.up, ·)
    <|> (readSymbol "." text).map (Step.here, ·)
    <|> (readAxisTest text).map fun ((axis, test), rest) =>
          let (predicates, rest) := many (readPredicate nested) rest
          (.mk axis test predicates, rest)

/-- Reads a step behind slashes, with the step that two slashes stand for. -/
def readNextStep (text : List Char) : Option (List Step × List Char) :=
  match readSymbol "//" text with
  | some rest => (readStep nested rest).map fun (step, rest) => ([.anywhere, step], rest)
  | none => do
      let (step, rest) ← readStep nested (← readSymbol "/" text)
      return ([step], rest)

/-- Reads the first step of a path with the slashes before it. One slash alone is the root. -/
def readFirstStep (text : List Char) : Option ((Bool × List Step) × List Char) :=
  match readSymbol "//" text with
  | some rest => (readStep nested rest).map fun (step, rest) => ((true, [.anywhere, step]), rest)
  | none =>
      match readSymbol "/" text with
      | some rest =>
          match readStep nested rest with
          | some (step, rest) => some ((true, [step]), rest)
          | none => some ((true, []), rest)
      | none => (readStep nested text).map fun (step, rest) => ((false, [step]), rest)

/-- Reads a location path. -/
def readPath (text : List Char) : Option (Expression × List Char) := do
  let ((absolute, first), rest) ← readFirstStep nested text
  let (others, rest) := many (readNextStep nested) rest
  return (.path absolute (first ++ others.flatten), rest)

/-- Reads an expression that has no operator outside of brackets. -/
def readPrimary (text : List Char) : Option (Expression × List Char) :=
  (readNumber text).map (fun (value, rest) => (.number value, rest))
    <|> (readLiteral text).map (fun (content, rest) => (.literal content, rest))
    <|> readCall nested text
    <|> readGroup nested text
    <|> readPath nested text

/-- Reads such an expression with white space around it. -/
def readTerm (text : List Char) : Option (Expression × List Char) :=
  (readPrimary nested (skipSpace text)).map fun (term, rest) => (term, skipSpace rest)

/-- Reads a union. -/
def readUnion : Reader Expression :=
  readChain (readOneOf Operator.symbol [.union]) (readTerm nested)

/-- Reads a minus sign with white space around it. -/
def readMinus (text : List Char) : Option (Unit × List Char) :=
  (readSpaced "-" text).map ((), ·)

/-- Reads a union with minus signs before it. -/
def readNegation (text : List Char) : Option (Expression × List Char) := do
  let (signs, rest) := many readMinus text
  let (operand, rest) ← readUnion nested rest
  return (signs.foldr (fun _ negated => .negate negated) operand, rest)

/-- Reads sums and differences. -/
def readSum : Reader Expression :=
  readChain (readOneOf Operator.symbol [.plus, .minus]) (readNegation nested)

/-- Reads comparisons by order. -/
def readOrder : Reader Expression :=
  readChain
    (readOneOf Operator.symbol
      [.compare .lessOrEqual, .compare .greaterOrEqual, .compare .less, .compare .greater])
    (readSum nested)

/-- Reads comparisons for equality. -/
def readEquality : Reader Expression :=
  readChain (readOneOf Operator.symbol [.compare .notEqual, .compare .equal]) (readOrder nested)

/-- Reads an operator that is written as a word. -/
def readWordOperator (operator : Operator) (text : List Char) : Option (Operator × List Char) :=
  (readKeyword operator.symbol text).map (operator, ·)

/-- Reads conjunctions. -/
def readConjunction : Reader Expression :=
  readChain (readWordOperator .and) (readEquality nested)

/-- Reads disjunctions, and so any expression. -/
def readDisjunction : Reader Expression :=
  readChain (readWordOperator .or) (readConjunction nested)

end Nested

/-- Reads an expression whose parts nest less than `depth` deep. -/
def readNested : (depth : Nat) → Reader Expression
  | 0 => fun _ => none
  | depth + 1 => readDisjunction (readNested depth)

/-- Reads an expression. -/
def readExpression (text : List Char) : Option (Expression × List Char) :=
  readNested (text.length + 1) text

namespace Expression

/-- The expression that a text is, without white space at its ends. -/
def parse (source : String) : Except Error Expression :=
  let text := Text.trim source.toList
  match readExpression text with
  | some (expression, []) => .ok expression
  | some (_, rest) => .error (.trailing source rest)
  | none => .error (.unreadable source ((readSymbol "//" text).getD text))

end Expression

end XPath

end XmlRecords
