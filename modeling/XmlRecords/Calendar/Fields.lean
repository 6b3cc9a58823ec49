import XmlRecords.Calendar.DateTime
import XmlRecords.Calendar.Pattern

/-! # What a text says about a date and time

The quantities that have been read so far. Each has a range, and none may be given twice with
different values.
-/

namespace XmlRecords

namespace Calendar

/-- Why a text is not read as a date and time. -/
inductive Fault where
  | outOfRange
  | impossible
  | notEnough
  | invalid
  | tooShort
  | tooLong
  | badPattern
deriving DecidableEq

/-- The wording of a fault. -/
def Fault.message : Fault → String
  | outOfRange => "input is out of range"
  | impossible => "no possible date and time matching input"
  | notEnough => "input is not enough for unique date and time"
  | invalid => "input contains invalid characters"
  | tooShort => "premature end of input"
  | tooLong => "trailing input"
  | badPattern => "bad or unsupported format string"

/-- The quantities that are known. -/
structure Fields where
  year : Option Int
  century : Option Int
  yearOfCentury : Option Int
  isoYear : Option Int
  isoYearOfCentury : Option Int
  quarter : Option Nat
  month : Option Nat
  day : Option Nat
  weekFromSunday : Option Nat
  weekFromMonday : Option Nat
  isoWeek : Option Nat
  /-- The day of the week, Monday being 0. -/
  weekday : Option Nat
  dayOfYear : Option Nat
  /-- After noon. -/
  isAfternoon : Option Bool
  /-- The hour since midnight or noon. -/
  hourOfHalf : Option Nat
  minute : Option Nat
  second : Option Nat
  nanosecond : Option Nat
  timestamp : Option Int
  offset : Option Int
deriving DecidableEq

namespace Fields

/-- Nothing is known. -/
def unknown : Fields :=
  ⟨none, none, none, none, none, none, none, none, none, none, none, none, none, none, none, none,
    none, none, none, none⟩

/-- Adds a value to what is known of a quantity. -/
def agree [DecidableEq α] (known : Option α) (value : α) : Except Fault (Option α) :=
  match known with
  | none => .ok (some value)
  | some other => if other = value then .ok (some value) else .error .impossible

/-- A value within its range. -/
def within (low high : Int) (value : Int) : Except Fault Int :=
  if low ≤ value ∧ value ≤ high then .ok value else .error .outOfRange

/-- A natural number within its range. -/
def countWithin (low high : Nat) (value : Int) : Except Fault Nat := do
  return (← within low high value).toNat

/-- Adds a day of the week, Monday being 0. -/
def addWeekday (fields : Fields) (weekday : Nat) : Except Fault Fields := do
  return { fields with weekday := ← agree fields.weekday weekday }

/-- Adds the half of the day. -/
def addHalf (fields : Fields) (isAfternoon : Bool) : Except Fault Fields := do
  return { fields with isAfternoon := ← agree fields.isAfternoon isAfternoon }

/-- Adds a month, counted from one. -/
def addMonth (fields : Fields) (month : Nat) : Except Fault Fields := do
  return { fields with month := ← agree fields.month month }

/-- Adds a fraction of a second. -/
def addNanosecond (fields : Fields) (nanosecond : Nat) : Except Fault Fields := do
  return { fields with nanosecond := ← agree fields.nanosecond nanosecond }

/-- Adds the distance from UTC. -/
def addOffset (fields : Fields) (offset : Int) : Except Fault Fields := do
  return { fields with offset := ← agree fields.offset offset }

/-- Adds the hour since midnight or noon, after the half of the day. -/
def addHour (fields : Fields) (hour : Nat) : Except Fault Fields := do
  let fields ← fields.addHalf (decide (12 ≤ hour))
  return { fields with hourOfHalf := ← agree fields.hourOfHalf (hour % 12) }

/-- Adds a count, which has to be in its range, to what is known of it. -/
def agreeCount (known : Option Nat) (low high : Nat) (value : Int) :
    Except Fault (Option Nat) := do
  agree known (← countWithin low high value)

/-- Adds an integer, which has to be in its range, to what is known of it. -/
def agreeInteger (known : Option Int) (low high : Int) (value : Int) :
    Except Fault (Option Int) := do
  agree known (← within low high value)

/-- Adds a year of 32 bits with a sign to what is known of it. -/
def agreeYear (known : Option Int) (value : Int) : Except Fault (Option Int) :=
  agreeInteger known Int32.minValue.toInt Int32.maxValue.toInt value

/-- Adds a number. -/
def add (fields : Fields) (quantity : Quantity) (value : Int) : Except Fault Fields := do
  match quantity with
  | .year => return { fields with year := ← agreeYear fields.year value }
  | .century =>
      return { fields with
        century := ← agreeInteger fields.century 0 Int32.maxValue.toInt value }
  | .yearOfCentury =>
      return { fields with yearOfCentury := ← agreeInteger fields.yearOfCentury 0 99 value }
  | .isoYear => return { fields with isoYear := ← agreeYear fields.isoYear value }
  | .isoYearOfCentury =>
      return { fields with isoYearOfCentury := ← agreeInteger fields.isoYearOfCentury 0 99 value }
  | .quarter => return { fields with quarter := ← agreeCount fields.quarter 1 4 value }
  | .month => fields.addMonth (← countWithin 1 12 value)
  | .day => return { fields with day := ← agreeCount fields.day 1 31 value }
  | .weekFromSunday =>
      return { fields with weekFromSunday := ← agreeCount fields.weekFromSunday 0 53 value }
  | .weekFromMonday =>
      return { fields with weekFromMonday := ← agreeCount fields.weekFromMonday 0 53 value }
  | .isoWeek => return { fields with isoWeek := ← agreeCount fields.isoWeek 1 53 value }
  | .daysFromSunday => fields.addWeekday (((← countWithin 0 6 value) + 6) % 7)
  | .numberFromMonday => fields.addWeekday ((← countWithin 1 7 value) - 1)
  | .dayOfYear => return { fields with dayOfYear := ← agreeCount fields.dayOfYear 1 366 value }
  | .hour => fields.addHour (← countWithin 0 23 value)
  | .hourOfHalf =>
      return { fields with
        hourOfHalf := ← agree fields.hourOfHalf ((← countWithin 1 12 value) % 12) }
  | .minute => return { fields with minute := ← agreeCount fields.minute 0 59 value }
  | .second => return { fields with second := ← agreeCount fields.second 0 60 value }
  | .nanosecond => fields.addNanosecond (← countWithin 0 999999999 value)
  | .timestamp => return { fields with timestamp := ← agree fields.timestamp value }

end Fields

end Calendar

end XmlRecords
