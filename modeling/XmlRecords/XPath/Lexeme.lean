import XmlRecords.Binary64.Basic
import XmlRecords.Text.Alphabetic
import XmlRecords.Text.Numeric
import XmlRecords.Text.Numeral
import XmlRecords.Text.Reader
import XmlRecords.XPath.Syntax

/-! # The words of XPath expressions

Readers for the parts of an expression that do not nest: white space, symbols, names, numbers and
string literals.
-/

namespace XmlRecords

namespace XPath

/-- The white space between the words of an expression. -/
def isSpace (char : Char) : Bool :=
  char = ' ' || char = '\t' || char = '\n' || char = '\r'

/-- The text without white space in front. -/
def skipSpace (text : List Char) : List Char :=
  text.dropWhile isSpace

/-- Reads a symbol with white space around it. -/
def readSpaced (symbol : String) (text : List Char) : Option (List Char) :=
  (readSymbol symbol (skipSpace text)).map skipSpace

/-- A character that a name can begin with. -/
def isNameStart (char : Char) : Bool :=
  Text.isAlphabetic char || char = '_'

/-- A character that a name can go on with. -/
def isNameChar (char : Char) : Bool :=
  Text.isAlphabetic char || Text.isNumeric char || char = '_' || char = '-' || char = '.'

/-- Reads a name without a colon. -/
def readName : Reader (List Char)
  | [] => none
  | char :: text => if isNameStart char then some ((char :: text).span isNameChar) else none

/-- Reads a colon and a name behind it. -/
def readLocalPart : Reader (List Char)
  | ':' :: text => readName text
  | _ => none

/-- Reads a name, of which only the part behind the prefix is kept. -/
def readLocalName (text : List Char) : Option (List Char × List Char) :=
  match readName text with
  | none => none
  | some (first, rest) =>
      match readLocalPart rest with
      | none => some (first, rest)
      | some (second, rest) => some (second, rest)

/-- Reads a name with its prefix, as it is written. -/
def readFullName (text : List Char) : Option (List Char × List Char) :=
  match readName text with
  | none => none
  | some (first, rest) =>
      match readLocalPart rest with
      | none => some (first, rest)
      | some (second, rest) => some (first ++ ':' :: second, rest)

/-- The value of a number with its digits before and behind the point. -/
def numberValue (whole fraction : List Char) : Float :=
  Binary64.ofDecimal (Numeral.value (whole ++ fraction)) (-fraction.length)

/-- Reads a number. Digits behind a point that reach the end of the whole text are taken, but do
not count. -/
def readNumber (text : List Char) : Option (Float × List Char) :=
  match text.span Char.isDigit with
  | ([], '.' :: rest) =>
      match rest.span Char.isDigit with
      | ([], _) => none
      | (fraction, rest) => some (numberValue [] fraction, rest)
  | ([], _) => none
  | (whole, '.' :: rest) =>
      match rest.span Char.isDigit with
      | (_, []) => some (numberValue whole [], [])
      | (fraction, rest) => some (numberValue whole fraction, rest)
  | (whole, rest) => some (numberValue whole [], rest)

/-- Reads a text up to the given quote. -/
def readQuoted (quote : Char) (text : List Char) : Option (String × List Char) :=
  match text.span (· != quote) with
  | (_, []) => none
  | (content, _ :: rest) => some (String.ofList content, rest)

/-- Reads a string literal, in quotes of either kind. -/
def readLiteral : Reader String
  | '\'' :: text => readQuoted '\'' text
  | '"' :: text => readQuoted '"' text
  | _ => none

/-- Reads a keyword. It must not go on as a name. -/
def readKeyword (keyword : String) (text : List Char) : Option (List Char) :=
  match readSymbol keyword text with
  | none => none
  | some [] => some []
  | some (char :: rest) => if isNameChar char then none else some (char :: rest)

/-- Reads the name of an axis and the two colons behind it. -/
def readAxis (text : List Char) : Option (Axis × List Char) := do
  let (axis, rest) ← readOneOf Axis.name Axis.all text
  let rest ← readSymbol "::" rest
  return (axis, rest)

/-- Reads a node type with its parentheses. -/
def readNodeType (name : String) (text : List Char) : Option (List Char) := do
  readSpaced "()" (← readSymbol name text)

/-- Reads a node test. -/
def readNodeTest (text : List Char) : Option (NodeTest × List Char) :=
  (readSymbol "*" text).map (NodeTest.any, ·)
    <|> (readNodeType "text" text).map (NodeTest.text, ·)
    <|> (readNodeType "comment" text).map (NodeTest.comment, ·)
    <|> (readNodeType "node" text).map (NodeTest.node, ·)
    <|> (readLocalName text).map fun (name, rest) => (NodeTest.name (String.ofList name), rest)

end XPath

end XmlRecords
