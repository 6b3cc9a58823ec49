import XmlRecords.Binary64.Basic
import XmlRecords.Json.Basic
import XmlRecords.Text.Numeral

/-! # The numbers of JSON

A number without fraction and exponent is an integer, when it fits 64 bits. All others are doubles:
the digits that fit 64 bits are taken for a whole number, which is then scaled by a power of ten,
with a rounding at either step.
-/

namespace XmlRecords

namespace Json

/-- The parts of a number as it is written. -/
structure Decimal where
  isNegative : Bool
  whole : List Char
  fraction : List Char
  /-- The exponent, if one is written. -/
  exponent : Option Int

/-- Adds digits to a number as long as it stays below `2 ^ 64`; also counts the digits added. -/
def absorb : (number : Nat) → List Char → Nat × Nat
  | number, [] => (number, 0)
  | number, digit :: digits =>
      let longer := 10 * number + Numeral.digitValue digit
      if longer < UInt64.size then
        let (total, count) := absorb longer digits
        (total, count + 1)
      else
        (number, 0)

/-- A double times a power of ten; none when the product is not finite. Below the smallest exponent
of a power that is a double, the quotient is taken in two steps. -/
def scaled? (number : Float) : Int → Option Float
  | .ofNat power =>
      let product := number * Binary64.ofDecimal 1 power
      if number == 0 then
        some number
      else if 308 < power || product.isInf then
        none
      else
        some product
  | .negSucc power =>
      let power := power + 1
      if number == 0 then
        some number
      else if power ≤ 308 then
        some (number / Binary64.ofDecimal 1 power)
      else if power ≤ 616 then
        some (number / Binary64.ofDecimal 1 308 / Binary64.ofDecimal 1 (power - 308 : Nat))
      else
        some (Binary64.ofNat 0)

namespace Decimal

/-- The double that a number is read as, if it is finite. The digits of the whole part that do not
fit count for the exponent, and those of the fraction not at all. -/
def toFloat? (decimal : Decimal) : Option Float :=
  let (significand, taken) := absorb 0 decimal.whole
  let (significand, places) := absorb significand decimal.fraction
  let exponent : Int := (decimal.whole.length - taken : Nat) - (places : Int)
    + decimal.exponent.getD 0
  (scaled? (Binary64.ofNat significand) exponent).map fun number =>
    if decimal.isNegative then -number else number

/-- The integer that a number is, when it is written as one and fits 64 bits. Minus zero is none. -/
def toInteger? (decimal : Decimal) : Option Int :=
  let number := Numeral.value decimal.whole
  if decimal.fraction.isEmpty && decimal.exponent.isNone then
    if decimal.isNegative then
      if decide (0 < number) && decide (Int64.minValue.toInt ≤ -number) then
        some (-number)
      else
        none
    else
      if number < UInt64.size then some number else none
  else
    none

/-- The JSON value of a number. -/
def toJson? (decimal : Decimal) : Option Json :=
  match decimal.toInteger? with
  | some number => some (.integer number)
  | none => decimal.toFloat?.map .real

end Decimal

end Json

end XmlRecords
