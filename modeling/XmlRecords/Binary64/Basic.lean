/-! # Double-precision numbers, exactly

A finite double is a whole number of units of `2 ^ -1074`, the least positive double. Its magnitude
is taken apart as `mantissa * 2 ^ scale` such units, and the double nearest to a ratio of natural
numbers is found from the same view, in exact arithmetic.
-/

namespace XmlRecords

namespace Binary64

/-- The bits of positive infinity. All smaller patterns are the magnitudes of finite doubles, in
order. -/
def infinityBits : Nat :=
  2047 <<< 52

/-- Positive infinity. -/
def infinity : Float :=
  Float.ofBits (UInt64.ofNat infinityBits)

/-- Not a number. -/
def notANumber : Float :=
  Float.ofBits (UInt64.ofNat (4095 <<< 51))

/-- The bits without the sign. -/
def magnitudeBits (number : Float) : Nat :=
  number.toBits.toNat % (1 <<< 63)

/-- The sign bit is set, also that of minus zero. -/
def isNegative (number : Float) : Bool :=
  decide (1 <<< 63 ≤ number.toBits.toNat)

/-- The double is finite. -/
def isFinite (number : Float) : Bool :=
  decide (magnitudeBits number < infinityBits)

/-- The magnitude of a finite double as `mantissa * 2 ^ scale` units of `2 ^ -1074`. The mantissa
is below `2 ^ 53`, and at least `2 ^ 52` when the scale is not zero. -/
def mantissaScale (number : Float) : Nat × Nat :=
  let bits := magnitudeBits number
  let exponent := bits >>> 52
  if exponent = 0 then (bits, 0) else ((1 <<< 52) + bits % (1 <<< 52), exponent - 1)

/-- The integer nearest to a quotient; a half goes to the even neighbour. -/
def roundedQuotient (numerator denominator : Nat) : Nat :=
  let whole := numerator / denominator
  let rest := numerator % denominator
  if 2 * rest < denominator then
    whole
  else if denominator < 2 * rest then
    whole + 1
  else
    whole + whole % 2

/-- The bits of the double nearest to a ratio; a half goes to the even neighbour. The ratio is
counted in units of `2 ^ -1074`, and rounded to units of the scale that leaves 53 binary digits.
Bits of adjacent doubles being adjacent numbers, a mantissa that is rounded up to the next power of
two carries into the exponent by itself. -/
def ratioBits (numerator denominator : Nat) : Nat :=
  let units := numerator <<< 1074
  let scale := (units / denominator).log2 - 52
  min ((scale <<< 52) + roundedQuotient units (denominator <<< scale)) infinityBits

/-- The double nearest to a ratio, infinity when it is too large. -/
def ofRatio (numerator denominator : Nat) : Float :=
  Float.ofBits (UInt64.ofNat (ratioBits numerator denominator))

/-- The double nearest to a natural number. -/
def ofNat (number : Nat) : Float :=
  ofRatio number 1

/-- The double nearest to an integer. -/
def ofInt : Int → Float
  | .ofNat number => ofNat number
  | .negSucc number => -(ofNat (number + 1))

/-- The double nearest to `mantissa * 10 ^ exponent`. Beyond the range of doubles the answer does
not depend on the digits, and no power of ten is formed. -/
def ofDecimal (mantissa : Nat) (exponent : Int) : Float :=
  if mantissa = 0 then
    ofNat 0
  else
    let magnitude := (Nat.toDigits 10 mantissa).length + exponent
    if 310 < magnitude then
      infinity
    else if magnitude < -330 then
      ofNat 0
    else
      match exponent with
      | .ofNat power => ofRatio (mantissa * Nat.pow 10 power) 1
      | .negSucc power => ofRatio mantissa (Nat.pow 10 (power + 1))

/-- The natural number that a double is, when it is one. -/
def toNat? (number : Float) : Option Nat :=
  let (mantissa, scale) := mantissaScale number
  if isNegative number || decide (infinityBits ≤ magnitudeBits number) then
    none
  else if (mantissa <<< scale) % (1 <<< 1074) = 0 then
    some (mantissa <<< scale >>> 1074)
  else
    none

end Binary64

end XmlRecords
