import XmlRecords.Binary64.Shortest

/-! # How doubles are written

A number is written with the digits of its shortest decimal, either by place value or with an
exponent. A layout says which of the two is taken, and spells out the rest.
-/

namespace XmlRecords

namespace Binary64

/-- The decisions of one way to write doubles. -/
structure Layout where
  /-- Which decimal is taken when two are equally near. -/
  tie : Tie
  /-- The decimal exponents of numbers that are written by place value. -/
  isPositional : Int → Bool
  /-- A whole number is written with `.0`. -/
  showsFraction : Bool
  /-- A positive exponent is written with a plus. -/
  showsPlus : Bool

namespace Layout

/-- Place value always, and no fraction for whole numbers. -/
def plain : Layout :=
  { tie := .up, isPositional := fun _ => true, showsFraction := false, showsPlus := false }

/-- Place value from `1e-4` up to below `1e16`, always with a fraction. -/
def detailed : Layout :=
  { tie := .up
    isPositional := fun exponent => decide (-4 ≤ exponent) && decide (exponent < 16)
    showsFraction := true
    showsPlus := false }

/-- Place value from `1e-5` up to below `1e16`, always with a fraction; signed exponents. -/
def interchange : Layout :=
  { tie := .even
    isPositional := fun exponent => decide (-5 ≤ exponent) && decide (exponent < 16)
    showsFraction := true
    showsPlus := true }

/-- Digits by place value, the first one standing for `10 ^ exponent`. -/
def positional (layout : Layout) (digits : List Char) (exponent : Int) : List Char :=
  match exponent with
  | .negSucc zeros => '0' :: '.' :: (List.replicate zeros '0' ++ digits)
  | .ofNat places =>
      let whole := digits.take (places + 1) ++ List.replicate (places + 1 - digits.length) '0'
      let fraction := digits.drop (places + 1)
      if fraction.isEmpty then
        whole ++ (if layout.showsFraction then ['.', '0'] else [])
      else
        whole ++ '.' :: fraction

/-- One digit, the rest as a fraction, and an exponent. -/
def scientific (layout : Layout) (digits : List Char) (exponent : Int) : List Char :=
  let significand :=
    match digits with
    | [] => []
    | [digit] => [digit]
    | digit :: fraction => digit :: '.' :: fraction
  let power :=
    match exponent with
    | .negSucc number => '-' :: Nat.toDigits 10 (number + 1)
    | .ofNat number => (if layout.showsPlus then ['+'] else []) ++ Nat.toDigits 10 number
  significand ++ 'e' :: power

/-- The magnitude of a finite double. -/
def magnitude (layout : Layout) (number : Float) : List Char :=
  if magnitudeBits number = 0 then
    if layout.showsFraction then ['0', '.', '0'] else ['0']
  else
    let decimal := shortest layout.tie number
    if layout.isPositional decimal.exponent then
      layout.positional decimal.digits decimal.exponent
    else
      layout.scientific decimal.digits decimal.exponent

/-- A finite double with its sign, that of zero included; none for the other doubles. -/
def finite? (layout : Layout) (number : Float) : Option (List Char) :=
  if isFinite number then
    some ((if isNegative number then ['-'] else []) ++ layout.magnitude number)
  else
    none

/-- Any double; those that are not finite are `NaN`, `inf` and `-inf`. -/
def text (layout : Layout) (number : Float) : String :=
  match layout.finite? number with
  | some digits => String.ofList digits
  | none =>
      if infinityBits < magnitudeBits number then
        "NaN"
      else if isNegative number then
        "-inf"
      else
        "inf"

end Layout

end Binary64

end XmlRecords
