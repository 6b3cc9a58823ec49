import XmlRecords.Binary64.Basic
import XmlRecords.Text.Numeral

/-! # Reading doubles

The numbers that are read: an optional sign, digits with an optional point before, among or behind
them, and an optional exponent; also the names of the doubles that are not finite, in letters of
either case. The answer is the nearest double.
-/

namespace XmlRecords

namespace Binary64

/-- A sign and the text behind it; true is a minus. -/
def readSign : List Char → Bool × List Char
  | '-' :: rest => (true, rest)
  | '+' :: rest => (false, rest)
  | text => (false, text)

/-- The exponent at the end of a number, zero when there is none. -/
def readExponent? : List Char → Option Int
  | [] => some 0
  | mark :: rest =>
      let (negative, digits) := readSign rest
      if (mark = 'e' ∨ mark = 'E') ∧ digits ≠ [] ∧ Numeral.isDigits digits then
        some (if negative then -(Numeral.value digits : Int) else Numeral.value digits)
      else
        none

/-- The digits behind a point, and the text behind them. -/
def readFraction : List Char → List Char × List Char
  | '.' :: rest => rest.span Char.isDigit
  | text => ([], text)

/-- A number without a sign. -/
def readDecimal? (negative : Bool) (text : List Char) : Option Float :=
  let (whole, behindWhole) := text.span Char.isDigit
  let (fraction, behindFraction) := readFraction behindWhole
  if whole.isEmpty && fraction.isEmpty then
    none
  else do
    let exponent ← readExponent? behindFraction
    let number := ofDecimal (Numeral.value (whole ++ fraction)) (exponent - fraction.length)
    return if negative then -number else number

/-- The double that a text writes, when it has the form of a number. -/
def read? (text : List Char) : Option Float :=
  let (negative, rest) := readSign text
  let name := String.ofList (rest.map Char.toLower)
  if name = "inf" ∨ name = "infinity" then
    some (if negative then -infinity else infinity)
  else if name = "nan" then
    some notANumber
  else
    readDecimal? negative rest

end Binary64

end XmlRecords
