/-! # Dates

Dates of the Gregorian calendar, extended to all years. A date is also the number of a day, day 1
being the first day of year 1, a Monday; weeks of the year, of both kinds, are found from there.
-/

namespace XmlRecords

namespace Calendar

/-- A year of 366 days. -/
def isLeapYear (year : Int) : Bool :=
  year % 4 = 0 && (year % 100 != 0 || year % 400 = 0)

/-- The number of days in a year. -/
def daysInYear (year : Int) : Nat :=
  if isLeapYear year then 366 else 365

/-- The lengths of the months of a year. -/
def monthLengths (year : Int) : List Nat :=
  [31, if isLeapYear year then 29 else 28, 31, 30, 31, 30, 31, 31, 30, 31, 30, 31]

/-- The years that dates can lie in. -/
def isYear (year : Int) : Bool :=
  decide (-262143 ≤ year) && decide (year ≤ 262142)

/-- A date: the year, and the month and the day counted from one. -/
structure Date where
  year : Int
  month : Nat
  day : Nat
deriving DecidableEq

/-- The number of the last day before a year. -/
def daysBeforeYear (year : Int) : Int :=
  let past := year - 1
  365 * past + past / 4 - past / 100 + past / 400

namespace Date

/-- The date of a month and a day, if there is one. -/
def ofMonthDay? (year : Int) (month day : Nat) : Option Date :=
  let length := ((monthLengths year)[month - 1]?).getD 0
  if isYear year && decide (1 ≤ month) && decide (1 ≤ day) && decide (day ≤ length) then
    some ⟨year, month, day⟩
  else
    none

/-- The month and the day of a day of the year, both counted from one. -/
def monthDay : (month : Nat) → List Nat → (day : Nat) → Nat × Nat
  | month, [], day => (month, day)
  | month, length :: lengths, day =>
      if day ≤ length then (month, day) else monthDay (month + 1) lengths (day - length)

/-- The date of a day of the year, if there is one. -/
def ofDayOfYear? (year : Int) (day : Nat) : Option Date :=
  if isYear year && decide (1 ≤ day) && decide (day ≤ daysInYear year) then
    let (month, day) := monthDay 1 (monthLengths year) day
    some ⟨year, month, day⟩
  else
    none

/-- The day of the year, counted from one. -/
def dayOfYear (date : Date) : Nat :=
  ((monthLengths date.year).take (date.month - 1)).foldl (· + ·) date.day

/-- The number of the day. -/
def dayNumber (date : Date) : Int :=
  daysBeforeYear date.year + date.dayOfYear

/-- The year that a numbered day lies in. -/
def yearOfDay (number : Int) : Int :=
  let guess := 400 * (number - 1) / 146097 + 1
  if number ≤ daysBeforeYear guess then
    guess - 1
  else if daysBeforeYear (guess + 1) < number then
    guess + 1
  else
    guess

/-- The date of a numbered day, if its year is one of the years of dates. -/
def ofDayNumber? (number : Int) : Option Date :=
  let year := yearOfDay number
  ofDayOfYear? year (number - daysBeforeYear year).toNat

/-- The day of the week of a numbered day, Monday being 0. -/
def weekdayOfDay (number : Int) : Nat :=
  ((number - 1) % 7).toNat

/-- The day of the week, Monday being 0. -/
def weekday (date : Date) : Nat :=
  weekdayOfDay date.dayNumber

/-- The number of days since the last day of the week `start`. -/
def daysSince (start weekday : Nat) : Nat :=
  (weekday + 7 - start) % 7

/-- The week of the year when weeks begin on `start`; the days before the first such day of the year
are in week 0. -/
def weekFrom (start : Nat) (date : Date) : Nat :=
  (date.dayOfYear + 6 - daysSince start date.weekday) / 7

/-- The date of a day of the week in a week of the year, when weeks begin on `start`. None of the
outer kind is for a week or year that there is not, and of the inner kind for a day outside of the
year. -/
def ofWeek? (year : Int) (week weekday start : Nat) : Option (Option Date) :=
  if 53 < week then
    none
  else
    (ofDayOfYear? year 1).map fun first =>
      let weekStart : Int := 1 + daysSince first.weekday start
      let day := weekStart + 7 * ((week : Int) - 1) + daysSince start weekday
      if day ≤ 0 then none else ofDayOfYear? year day.toNat

/-- The Monday of the first ISO week of a year, the week that the fourth of January lies in. -/
def isoStart (year : Int) : Int :=
  let fourth := daysBeforeYear year + 4
  fourth - weekdayOfDay fourth

/-- The ISO year of a numbered day: the year in which the Thursday of its week lies. -/
def isoYearOfDay (number : Int) : Int :=
  yearOfDay (number - weekdayOfDay number + 3)

/-- The ISO year of a date. -/
def isoYear (date : Date) : Int :=
  isoYearOfDay date.dayNumber

/-- The ISO week of a date, counted from one. -/
def isoWeek (date : Date) : Nat :=
  ((date.dayNumber - isoStart date.isoYear) / 7 + 1).toNat

/-- The number of ISO weeks of a year. -/
def isoWeeks (year : Int) : Nat :=
  ((isoStart (year + 1) - isoStart year) / 7).toNat

/-- The date of a day of the week in an ISO week, if there is one. -/
def ofIsoWeek? (year : Int) (week weekday : Nat) : Option Date :=
  if decide (1 ≤ week) && decide (week ≤ isoWeeks year) then
    ofDayNumber? (isoStart year + 7 * ((week : Int) - 1) + weekday)
  else
    none

/-- The quarter of the year, counted from one. -/
def quarter (date : Date) : Nat :=
  (date.month - 1) / 3 + 1

end Date

end Calendar

end XmlRecords
