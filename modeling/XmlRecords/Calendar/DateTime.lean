import XmlRecords.Calendar.Date
import XmlRecords.Text.Numeral

/-! # Points in time

A point in time is a local date and time with its distance from UTC. Second 60 is a leap second.
-/

namespace XmlRecords

namespace Calendar

/-- A time of the day. The second may be 60. -/
structure Time where
  hour : Nat
  minute : Nat
  second : Nat
  nanosecond : Nat
deriving DecidableEq

/-- Midnight. -/
def Time.midnight : Time :=
  ⟨0, 0, 0, 0⟩

/-- The seconds of the day; a leap second counts as the second before it. -/
def Time.secondOfDay (time : Time) : Int :=
  time.hour * 3600 + time.minute * 60 + min time.second 59

/-- The time of a second of the day. -/
def Time.ofSecondOfDay (second : Nat) : Time :=
  ⟨second / 3600, second / 60 % 60, second % 60, 0⟩

/-- The number of the day from which timestamps count. -/
def epochDay : Int :=
  719163

/-- A local date and time. -/
structure LocalDateTime where
  date : Date
  time : Time
deriving DecidableEq

namespace LocalDateTime

/-- The seconds since the start of 1970. -/
def timestamp (point : LocalDateTime) : Int :=
  (point.date.dayNumber - epochDay) * 86400 + point.time.secondOfDay

/-- The date and time that are so many seconds after the start of 1970, if there is such a date. -/
def ofTimestamp? (timestamp : Int) : Option LocalDateTime :=
  (Date.ofDayNumber? (timestamp / 86400 + epochDay)).map fun date =>
    ⟨date, Time.ofSecondOfDay (timestamp % 86400).toNat⟩

end LocalDateTime

/-- A point in time: the local date and time, and how many seconds it is ahead of UTC. -/
structure DateTime where
  point : LocalDateTime
  offset : Int
deriving DecidableEq

namespace DateTime

/-- A year, with four digits at least; years outside of these four digits have a sign. -/
def yearText (year : Int) : List Char :=
  if year < 0 then
    '-' :: Numeral.padded 4 year.natAbs
  else if 9999 < year then
    '+' :: Numeral.padded 4 year.toNat
  else
    Numeral.padded 4 year.toNat

/-- A fraction of a second, with as many groups of three digits as it needs. -/
def fractionText (nanosecond : Nat) : List Char :=
  if nanosecond = 0 then
    []
  else if nanosecond % 1000000 = 0 then
    '.' :: Numeral.padded 3 (nanosecond / 1000000)
  else if nanosecond % 1000 = 0 then
    '.' :: Numeral.padded 6 (nanosecond / 1000)
  else
    '.' :: Numeral.padded 9 nanosecond

/-- The distance from UTC in hours and minutes. -/
def offsetText (offset : Int) : List Char :=
  let minutes := offset.natAbs / 60
  (if offset < 0 then '-' else '+') :: Numeral.padded 2 (minutes / 60)
    ++ ':' :: Numeral.padded 2 (minutes % 60)

/-- A point in time as RFC 3339 writes it. -/
def text (point : DateTime) : String :=
  let date := point.point.date
  let time := point.point.time
  String.ofList (yearText date.year ++ '-' :: Numeral.padded 2 date.month
    ++ '-' :: Numeral.padded 2 date.day
    ++ 'T' :: Numeral.padded 2 time.hour ++ ':' :: Numeral.padded 2 time.minute
    ++ ':' :: Numeral.padded 2 time.second ++ fractionText time.nanosecond
    ++ offsetText point.offset)

end DateTime

end Calendar

end XmlRecords
