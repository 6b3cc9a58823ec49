import XmlRecords.Calendar.Scanning

/-! # Finding a date and time

The date is found from the first group of quantities that determines it: year, month and day; year
and day of the year; year, week and day of the week; or the same by ISO weeks. All other quantities
have to agree with it. A timestamp stands for date and time, when these are not known otherwise.
-/

namespace XmlRecords

namespace Calendar

/-- The year that is given in full or in parts. Two digits alone are a year from 1970 to 2069. -/
def resolveYear (full century ofCentury : Option Int) : Except Fault (Option Int) :=
  match full, century, ofCentury with
  | year, none, none => .ok year
  | some year, _, _ =>
      if 0 ≤ year ∧ century.getD (year / 100) = year / 100
          ∧ ofCentury.getD (year % 100) = year % 100 then
        .ok (some year)
      else
        .error .impossible
  | none, some century, some ofCentury =>
      let year := century * 100 + ofCentury
      if year ≤ Int32.maxValue.toInt then .ok (some year) else .error .outOfRange
  | none, none, some ofCentury =>
      .ok (some (if ofCentury < 70 then 2000 + ofCentury else 1900 + ofCentury))
  | none, some _, none => .error .notEnough

/-- A known value agrees with an actual one. -/
def agrees [DecidableEq α] (known : Option α) (actual : α) : Bool :=
  known.getD actual = actual

/-- The parts of a year agree with it; a year before year 0 has no parts. -/
def agreesWithParts (century ofCentury : Option Int) (year : Int) : Bool :=
  if 0 ≤ year then
    agrees century (year / 100) && agrees ofCentury (year % 100)
  else
    century.isNone && ofCentury.isNone

namespace Fields

/-- Year, month and day agree with a date. -/
def agreesWithDate (fields : Fields) (date : Date) : Bool :=
  agrees fields.year date.year
    && agreesWithParts fields.century fields.yearOfCentury date.year
    && agrees fields.month date.month && agrees fields.day date.day

/-- The ISO week and the day of the week agree with a date. -/
def agreesWithIsoWeek (fields : Fields) (date : Date) : Bool :=
  agrees fields.isoYear date.isoYear
    && agreesWithParts none fields.isoYearOfCentury date.isoYear
    && agrees fields.isoWeek date.isoWeek && agrees fields.weekday date.weekday

/-- The day of the year and the weeks of the year agree with a date. -/
def agreesWithDayOfYear (fields : Fields) (date : Date) : Bool :=
  agrees fields.dayOfYear date.dayOfYear && agrees fields.weekFromSunday (date.weekFrom 6)
    && agrees fields.weekFromMonday (date.weekFrom 0)

/-- A value, or a fault if there is none. -/
def orFault (fault : Fault) : Option α → Except Fault α
  | some value => .ok value
  | none => .error fault

/-- The date of a day of the week in a week of the year. -/
def dateOfWeek (year : Int) (week weekday start : Nat) : Except Fault Date := do
  orFault .impossible (← orFault .outOfRange (Date.ofWeek? year week weekday start))

/-- The date that the fields determine, and whether all that they say besides agrees with it. -/
def candidate (fields : Fields) : Except Fault (Date × Bool) := do
  let year ← resolveYear fields.year fields.century fields.yearOfCentury
  let isoYear ← resolveYear fields.isoYear none fields.isoYearOfCentury
  let unlessIso (date : Date) : Bool :=
    fields.agreesWithDate date && fields.agreesWithDayOfYear date
  let always (date : Date) : Bool :=
    unlessIso date && fields.agreesWithIsoWeek date
  match year, fields.month, fields.day with
  | some year, some month, some day =>
      let date ← orFault .outOfRange (Date.ofMonthDay? year month day)
      return (date, fields.agreesWithIsoWeek date && fields.agreesWithDayOfYear date)
  | _, _, _ =>
  match year, fields.dayOfYear with
  | some year, some day =>
      let date ← orFault .outOfRange (Date.ofDayOfYear? year day)
      return (date, always date)
  | _, _ =>
  match year, fields.weekFromSunday, fields.weekday with
  | some year, some week, some weekday =>
      let date ← dateOfWeek year week weekday 6
      return (date, always date)
  | _, _, _ =>
  match year, fields.weekFromMonday, fields.weekday with
  | some year, some week, some weekday =>
      let date ← dateOfWeek year week weekday 0
      return (date, always date)
  | _, _, _ =>
  match isoYear, fields.isoWeek, fields.weekday with
  | some isoYear, some week, some weekday =>
      let date ← orFault .outOfRange (Date.ofIsoWeek? isoYear week weekday)
      return (date, unlessIso date)
  | _, _, _ => throw .notEnough

/-- The date that the fields determine. -/
def date (fields : Fields) : Except Fault Date := do
  let (date, isConsistent) ← fields.candidate
  if isConsistent && agrees fields.quarter date.quarter then return date else throw .impossible

/-- The time that the fields determine. Minutes are needed; without seconds there is no fraction of
them. -/
def time (fields : Fields) : Except Fault Time := do
  let isAfternoon ← orFault .notEnough fields.isAfternoon
  let hour ← orFault .notEnough fields.hourOfHalf
  let minute ← orFault .notEnough fields.minute
  if fields.second.isNone && fields.nanosecond.isSome then
    throw .notEnough
  else
    return ⟨if isAfternoon then hour + 12 else hour, minute, fields.second.getD 0,
      fields.nanosecond.getD 0⟩

/-- A timestamp agrees with a local date and time. A leap second may count as the second behind
it. -/
def agreesWithTimestamp (fields : Fields) (offset : Int) (point : LocalDateTime) : Bool :=
  match fields.timestamp with
  | none => true
  | some given =>
      let timestamp := point.timestamp - offset
      given = timestamp || (point.time.second = 60 && given = timestamp + 1)

/-- Adds the date and time of a timestamp to the fields. Of a leap second that is known already, it
may be the second behind it. -/
def addTimestamp (fields : Fields) (timestamp : Int) : Except Fault Fields := do
  let point ← orFault .outOfRange (LocalDateTime.ofTimestamp? timestamp)
  let (point, fields) ←
    if fields.second = some 60 then
      if point.time.second = 59 then
        pure (point, fields)
      else if point.time.second = 0 then do
        pure (← orFault .outOfRange (LocalDateTime.ofTimestamp? (timestamp - 1)), fields)
      else
        throw .impossible
    else do
      pure (point, ← fields.add .second point.time.second)
  let fields ← fields.add .year point.date.year
  let fields ← fields.add .dayOfYear point.date.dayOfYear
  let fields ← fields.add .hour point.time.hour
  fields.add .minute point.time.minute

/-- The fault that counts when date and time are not both known: one out of range, then one that
cannot be; none if something is only missing. -/
def gravest (date : Except Fault Date) (time : Except Fault Time) : Option Fault :=
  match date, time with
  | .error .outOfRange, _ => some .outOfRange
  | _, .error .outOfRange => some .outOfRange
  | .error .impossible, _ => some .impossible
  | _, .error .impossible => some .impossible
  | _, _ => none

/-- The local date and time that the fields determine, at a distance from UTC at which the timestamp
is looked at. -/
def localDateTime (fields : Fields) (offset : Int) : Except Fault LocalDateTime := do
  match fields.date, fields.time, fields.timestamp with
  | .ok date, .ok time, _ =>
      if fields.agreesWithTimestamp offset ⟨date, time⟩ then
        return ⟨date, time⟩
      else
        throw .impossible
  | date, time, some timestamp =>
      match gravest date time with
      | some fault => throw fault
      | none =>
          let fields ← fields.addTimestamp (timestamp + offset)
          return ⟨← fields.date, ← fields.time⟩
  | date, time, none => return ⟨← date, ← time⟩

/-- The point in time that the fields determine. A timestamp without a distance from UTC is at
UTC. -/
def dateTime (fields : Fields) : Except Fault DateTime := do
  let offset ← match fields.offset, fields.timestamp with
    | some offset, _ => pure offset
    | none, some _ => pure 0
    | none, none => throw .notEnough
  let point ← fields.localDateTime offset
  if 86400 ≤ offset.natAbs then
    throw .outOfRange
  else if (LocalDateTime.ofTimestamp? (point.timestamp - offset)).isNone then
    throw .impossible
  else
    return ⟨point, offset⟩

end Fields

/-- Reads a point in time by a pattern. Without a distance from UTC it is at UTC, and without a time
at midnight. If the text is not read, the fault is that of a date and time without distance. -/
def DateTime.read (pattern text : String) : Except Fault DateTime :=
  let fields := scan pattern text
  match fields >>= Fields.dateTime with
  | .ok point => .ok point
  | .error _ =>
      match fields >>= fun known => known.localDateTime 0 with
      | .ok point => .ok ⟨point, 0⟩
      | .error fault =>
          match fields >>= Fields.date with
          | .ok date => .ok ⟨⟨date, .midnight⟩, 0⟩
          | .error _ => .error fault

end Calendar

end XmlRecords
