import XmlRecords.Binary64.Basic

/-! # The shortest decimal of a double

The reals that round to a finite double form an interval around it. The shortest decimal of the
double is found on the grids of one, two, … seventeen significant digits: on the first grid that
has a point in the interval, it is the point nearest to the double. Of the points of a grid only
the two neighbours of the double have to be looked at.
-/

namespace XmlRecords

namespace Binary64

/-- Which of two equally near decimals is taken. -/
inductive Tie where
  /-- The larger one. -/
  | up
  /-- The one whose last digit is even. -/
  | even
deriving DecidableEq

/-- A positive decimal: its digits without zeros at the end, and the exponent of the first digit,
so that `125` and `0` stand for `1.25`. -/
structure Decimal where
  digits : List Char
  exponent : Int
deriving DecidableEq

/-- The reals that round to a positive double, all of them scaled by `4 * 2 ^ 1074 * 10 ^ 400`, and
the double between them. The ends belong to it when the mantissa is even. -/
structure Interval where
  low : Nat
  value : Nat
  high : Nat
  closed : Bool

/-- The interval of a positive double. Below a power of two the doubles lie twice as close. -/
def Interval.of (number : Float) : Interval :=
  let (mantissa, scale) := mantissaScale number
  let unit := Nat.pow 10 400 <<< scale
  let below := if mantissa = 1 <<< 52 && scale ≠ 0 then unit else 2 * unit
  { low := 4 * mantissa * unit - below
    value := 4 * mantissa * unit
    high := 4 * mantissa * unit + 2 * unit
    closed := mantissa % 2 = 0 }

/-- A point lies in the interval. -/
def Interval.contains (interval : Interval) (point : Nat) : Bool :=
  if interval.closed then
    decide (interval.low ≤ point) && decide (point ≤ interval.high)
  else
    decide (interval.low < point) && decide (point < interval.high)

/-- The nearest of the two neighbours of the value among the multiples of `step`, if the interval
has one of them, as the number of steps. -/
def Interval.nearest? (interval : Interval) (tie : Tie) (step : Nat) : Option Nat :=
  let below := interval.value / step
  let rest := interval.value % step
  let upper :=
    match compare (2 * rest) step, tie with
    | .lt, _ => false
    | .gt, _ => true
    | .eq, .up => true
    | .eq, .even => below % 2 = 1
  match interval.contains (below * step), interval.contains ((below + 1) * step) with
  | false, false => none
  | true, false => some below
  | false, true => some (below + 1)
  | true, true => some (if upper then below + 1 else below)

/-- The step of the grid of the multiples of `10 ^ places`, on the scale of intervals. -/
def gridStep (places : Nat) : Nat :=
  (4 * Nat.pow 10 places) <<< 1074

/-- Looks for a point of the interval on the grid of `places`, and then on finer grids, `tries` of
them at most. The answer is a multiple of a grid's step, and the places of that grid. -/
def Interval.search (interval : Interval) (tie : Tie) : (tries places : Nat) → Nat × Nat
  | 0, places => (interval.value / gridStep places, places)
  | tries + 1, places =>
      match interval.nearest? tie (gridStep places) with
      | some multiple => (multiple, places)
      | none => interval.search tie tries (places - 1)

/-- A row of digits without the zeros at its end. -/
def withoutEndZeros (digits : List Char) : List Char :=
  (digits.reverse.dropWhile (· == '0')).reverse

/-- The shortest decimal of a positive finite double. The first grid is that of its first digit;
seventeen digits are always enough. -/
def shortest (tie : Tie) (number : Float) : Decimal :=
  let interval := Interval.of number
  let first := (Nat.toDigits 10 (interval.value / gridStep 0)).length - 1
  let (multiple, places) := interval.search tie 17 first
  let digits := Nat.toDigits 10 multiple
  { digits := withoutEndZeros digits
    exponent := (places + digits.length : Nat) - 401 }

end Binary64

end XmlRecords
