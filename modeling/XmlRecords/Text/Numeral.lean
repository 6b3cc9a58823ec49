/-! # Decimal numerals

The digits of a natural number and the number a row of digits denotes. Both work on lists of
characters, digits being the ten ASCII ones.
-/

namespace XmlRecords

namespace Numeral

/-- The decimal digits of a number, the most significant first; zero is `0`. -/
def digits (number : Nat) : List Char :=
  Nat.toDigits 10 number

/-- The number of one digit. -/
def digitValue (digit : Char) : Nat :=
  digit.toNat - '0'.toNat

/-- The number that a row of digits denotes, read from the most significant; no digit is zero. -/
def value (row : List Char) : Nat :=
  row.foldl (fun number digit => 10 * number + digitValue digit) 0

/-- Every character is an ASCII digit. -/
def isDigits (row : List Char) : Bool :=
  row.all Char.isDigit

/-- The number that a row of digits denotes, when it is below `2 ^ 64`. -/
def value64? (row : List Char) : Option UInt64 :=
  if value row < UInt64.size then some (UInt64.ofNat (value row)) else none

/-- A number written in decimal. -/
def text (number : Nat) : String :=
  String.ofList (digits number)

/-- A signed number written in decimal, with a minus when it is negative. -/
def signedText : Int → String
  | .ofNat number => text number
  | .negSucc number => "-" ++ text (number + 1)

/-- A number written with at least `width` digits, zeros in front. -/
def padded (width : Nat) (number : Nat) : List Char :=
  List.replicate (width - (digits number).length) '0' ++ digits number

end Numeral

end XmlRecords
