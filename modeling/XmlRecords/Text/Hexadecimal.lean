/-! # Hexadecimal numerals

The digits of a natural number to base sixteen, and the number a row of them denotes. Digits are
read in either case, and written small.
-/

namespace XmlRecords

namespace Hexadecimal

/-- The digits of a number, the most significant first; zero is `0`. -/
def digits (number : Nat) : List Char :=
  Nat.toDigits 16 number

/-- A hexadecimal digit of either case. -/
def isDigit (char : Char) : Bool :=
  char.isDigit || ('a' ≤ char && char ≤ 'f') || ('A' ≤ char && char ≤ 'F')

/-- The number of one digit. -/
def digitValue (digit : Char) : Nat :=
  if digit.isDigit then
    digit.toNat - '0'.toNat
  else if digit.isLower then
    digit.toNat - 'a'.toNat + 10
  else
    digit.toNat - 'A'.toNat + 10

/-- The number that a row of digits denotes, read from the most significant; no digit is zero. -/
def value (row : List Char) : Nat :=
  row.foldl (fun number digit => 16 * number + digitValue digit) 0

end Hexadecimal

end XmlRecords
