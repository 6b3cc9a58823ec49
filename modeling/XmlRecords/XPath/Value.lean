import XmlRecords.Binary64.Layout
import XmlRecords.Binary64.Reading
import XmlRecords.Document.Address
import XmlRecords.Text.Blank
import XmlRecords.Text.Quoted

/-! # Values of expressions

The four types of values, and the conversions between them. A node-set is converted through the text
of its first node.
-/

namespace XmlRecords

namespace XPath

/-- The value of an expression. -/
inductive Value where
  | nodes (found : List Address)
  | string (text : String)
  | number (real : Float)
  | boolean (truth : Bool)

/-- A text without its minus sign. -/
def withoutMinus : List Char → List Char
  | '-' :: rest => rest
  | text => text

/-- Digits with at most one point, and with at least one digit. -/
def isPlainNumber (text : List Char) : Bool :=
  !text.isEmpty && text.all (fun char => char.isDigit || char = '.')
    && decide (text.count '.' ≤ 1) && text != ['.']

/-- The number that a text is, without white space around it: an optional minus, and digits with an
optional point. Any other text is not a number. -/
def numberOfText (text : String) : Float :=
  let trimmed := Text.trim text.toList
  if isPlainNumber (withoutMinus trimmed) then
    (Binary64.read? trimmed).getD Binary64.notANumber
  else
    Binary64.notANumber

/-- The text of a number: digits without an exponent. Zero has no sign. -/
def textOfNumber (number : Float) : String :=
  match Binary64.Layout.plain.finite? number with
  | some digits => if number == 0 then "0" else String.ofList digits
  | none =>
      if number.isNaN then
        "NaN"
      else if Binary64.isNegative number then
        "-Infinity"
      else
        "Infinity"

/-- The text of a truth value. -/
def textOfBoolean : Bool → String
  | true => "true"
  | false => "false"

namespace Value

/-- The truth of a value: of a node-set or text that is not empty, and of a number other than zero
that is a number. -/
def toBoolean : Value → Bool
  | nodes found => !found.isEmpty
  | string text => !text.isEmpty
  | number real => real != 0 && !real.isNaN
  | boolean truth => truth

/-- The number of a value. An empty node-set is not a number. -/
def toNumber (document : Document) : Value → Float
  | nodes [] => Binary64.notANumber
  | nodes (node :: _) => numberOfText (document.textAt node)
  | string text => numberOfText text
  | number real => real
  | boolean truth => if truth then 1 else 0

/-- The text of a value. An empty node-set has the empty text. -/
def toText (document : Document) : Value → String
  | nodes [] => ""
  | nodes (node :: _) => document.textAt node
  | string text => text
  | number real => textOfNumber real
  | boolean truth => textOfBoolean truth

/-- A value as messages about its type show it. -/
def shown : Value → String
  | nodes _ => "a node-set"
  | string text => "String(" ++ Text.quoted text.toList ++ ")"
  | number real => "Number(" ++ Binary64.Layout.detailed.text real ++ ")"
  | boolean truth => "Boolean(" ++ textOfBoolean truth ++ ")"

end Value

end XPath

end XmlRecords
