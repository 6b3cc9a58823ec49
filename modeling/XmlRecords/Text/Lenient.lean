import XmlRecords.Binary64.Reading
import XmlRecords.Text.Blank

/-! # Lenient numbers

The number that a text begins with. White space in front is skipped, what follows the number does
not count, and a text without a number is zero. Digits may have single underscores between them.
-/

namespace XmlRecords

namespace Lenient

/-- The nearest integer of 64 bits with a sign. -/
def clamp (number : Int) : Int :=
  max Int64.minValue.toInt (min number Int64.maxValue.toInt)

/-- Reads digits on from a number, which does not leave the range of 64 bits. An underscore may come
behind a digit. -/
def integerFrom (isNegative : Bool) : (number : Int) → (behindDigit : Bool) → List Char → Int
  | number, _, [] => number
  | number, behindDigit, char :: rest =>
      if char.isDigit then
        let digit : Int := Numeral.digitValue char
        let shifted := clamp (10 * number)
        integerFrom isNegative (clamp (if isNegative then shifted - digit else shifted + digit))
          true rest
      else if behindDigit && char = '_' then
        integerFrom isNegative number false rest
      else
        number

/-- The integer that a text begins with. An integer out of range is the nearest one in range. -/
def integer (text : String) : Int64 :=
  let (isNegative, digits) := Binary64.readSign (Text.trimStart text.toList)
  Int64.ofInt (integerFrom isNegative 0 false digits)

/-- The text begins with a digit. -/
def beginsWithDigit : List Char → Bool
  | [] => false
  | char :: _ => char.isDigit

/-- Takes digits with single underscores between them. -/
def digitRow : (behindDigit : Bool) → List Char → List Char × List Char
  | _, [] => ([], [])
  | behindDigit, char :: rest =>
      if char.isDigit || (char = '_' && behindDigit && beginsWithDigit rest) then
        let (row, rest) := digitRow char.isDigit rest
        (char :: row, rest)
      else
        ([], char :: rest)

/-- Takes a sign. -/
def signPart : List Char → List Char × List Char
  | '-' :: rest => (['-'], rest)
  | '+' :: rest => (['+'], rest)
  | text => ([], text)

/-- Takes a point with digits behind it. -/
def fractionPart : List Char → List Char × List Char
  | '.' :: rest =>
      let (row, behind) := digitRow false rest
      if row.isEmpty then ([], '.' :: rest) else ('.' :: row, behind)
  | text => ([], text)

/-- An exponent with its mark and its digits. -/
def exponentPart : List Char → List Char
  | [] => []
  | mark :: rest =>
      let (sign, behindSign) := signPart rest
      let (row, _) := digitRow false behindSign
      if (mark = 'e' || mark = 'E') && !row.isEmpty then mark :: (sign ++ row) else []

/-- The number that a text begins with, as it is written. There is a digit in front of its
exponent. -/
def leadingNumber? (text : List Char) : Option (List Char) :=
  let (sign, behindSign) := signPart text
  let (whole, behindWhole) := digitRow false behindSign
  let (fraction, behindFraction) := fractionPart behindWhole
  if whole.isEmpty && fraction.isEmpty then
    none
  else
    some (sign ++ whole ++ fraction ++ exponentPart behindFraction)

/-- The double that a text begins with. -/
def real (text : String) : Float :=
  let number := (leadingNumber? (Text.trimStart text.toList)).bind fun number =>
    Binary64.read? (number.filter fun char => char != '_')
  number.getD (Binary64.ofNat 0)

end Lenient

end XmlRecords
