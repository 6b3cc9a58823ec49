import XmlRecords.Duration.Error
import XmlRecords.Text.Numeral

/-! # Durations

A duration holds at most one magnitude for each unit of time. A unit that is not set differs from
a unit set to zero: only set units are written, and only they conflict when two durations are
merged.
-/

namespace XmlRecords

/-- A magnitude, or none, for each unit of time. -/
structure Duration where
  days : Option UInt64
  hours : Option UInt64
  minutes : Option UInt64
  seconds : Option UInt64
deriving DecidableEq

namespace Duration

/-- The duration with no unit set. -/
def unset : Duration :=
  ⟨none, none, none, none⟩

/-- The magnitude of a unit. -/
def get? (duration : Duration) : TimeUnit → Option UInt64
  | .days => duration.days
  | .hours => duration.hours
  | .minutes => duration.minutes
  | .seconds => duration.seconds

/-- Gives a unit a magnitude, whatever it had before. -/
def set (duration : Duration) (unit : TimeUnit) (magnitude : UInt64) : Duration :=
  match unit with
  | .days => { duration with days := some magnitude }
  | .hours => { duration with hours := some magnitude }
  | .minutes => { duration with minutes := some magnitude }
  | .seconds => { duration with seconds := some magnitude }

/-- The duration with one unit set. -/
def single (unit : TimeUnit) (magnitude : UInt64) : Duration :=
  unset.set unit magnitude

/-- Gives a magnitude to a unit that has none yet. -/
def assign (duration : Duration) (pair : TimeUnit × UInt64) : Except DurationError Duration :=
  match duration.get? pair.1 with
  | some _ => .error (.repeatedUnit pair.1)
  | none => .ok (duration.set pair.1 pair.2)

/-- Assigns the magnitudes of a list from left to right; no unit may come twice. -/
def ofPairs (pairs : List (TimeUnit × UInt64)) : Except DurationError Duration :=
  pairs.foldlM assign unset

/-- The set units with their magnitudes, largest unit first. -/
def setUnits (duration : Duration) : List (TimeUnit × UInt64) :=
  TimeUnit.all.filterMap fun unit => (duration.get? unit).map fun magnitude => (unit, magnitude)

/-- No unit is set, not even to zero. -/
def isUnset (duration : Duration) : Bool :=
  TimeUnit.all.all fun unit => (duration.get? unit).isNone

/-- The largest unit that is set on both sides. -/
def sharedUnit? (left right : Duration) : Option TimeUnit :=
  TimeUnit.all.find? fun unit => (left.get? unit).isSome && (right.get? unit).isSome

/-- The duration with the units of both sides set. A unit set on both sides is an error, which
names the largest such unit. -/
def merge (left right : Duration) : Except DurationError Duration :=
  match left.sharedUnit? right with
  | some unit => .error (.repeatedUnit unit)
  | none => .ok
      { days := left.days.or right.days
        hours := left.hours.or right.hours
        minutes := left.minutes.or right.minutes
        seconds := left.seconds.or right.seconds }

/-- Adds a magnitude of a unit to a count of seconds; product and sum stop at `2 ^ 64 - 1`. -/
def addSeconds (total : UInt64) (pair : TimeUnit × UInt64) : UInt64 :=
  let product := UInt64.ofNat (min (pair.2.toNat * pair.1.inSeconds) (UInt64.size - 1))
  UInt64.ofNat (min (total.toNat + product.toNat) (UInt64.size - 1))

/-- The length of a duration in seconds, at most `2 ^ 64 - 1`. -/
def totalSeconds (duration : Duration) : UInt64 :=
  duration.setUnits.foldl addSeconds 0

/-- A magnitude with the letter of its unit, such as `12h`. -/
def pairText (pair : TimeUnit × UInt64) : String :=
  (Numeral.text pair.2.toNat).push pair.1.suffix

/-- The set units with their letters, largest first and with spaces between, such as
`1d 12h 0m`; a duration with no unit set is written `0s`. -/
def text (duration : Duration) : String :=
  if duration.isUnset then "0s" else " ".intercalate (duration.setUnits.map pairText)

end Duration

end XmlRecords
