/-! # Units of time

The four units a duration is measured in, from days down to seconds. Each has a letter, by which a
duration format names it, and a fixed length in seconds.
-/

namespace XmlRecords

/-- A unit of time. -/
inductive TimeUnit where
  | days
  | hours
  | minutes
  | seconds
deriving DecidableEq

namespace TimeUnit

/-- The units, largest first. -/
def all : List TimeUnit :=
  [days, hours, minutes, seconds]

/-- The length of a unit in seconds. -/
def inSeconds : TimeUnit → Nat
  | days => 86400
  | hours => 3600
  | minutes => 60
  | seconds => 1

/-- The capital letter that names a unit in a format. -/
def letter : TimeUnit → Char
  | days => 'D'
  | hours => 'H'
  | minutes => 'M'
  | seconds => 'S'

/-- The small letter that follows a magnitude in the text of a duration. -/
def suffix : TimeUnit → Char
  | days => 'd'
  | hours => 'h'
  | minutes => 'm'
  | seconds => 's'

/-- The unit a letter names; no other character, small letters included, names one. -/
def ofLetter? : Char → Option TimeUnit
  | 'D' => some days
  | 'H' => some hours
  | 'M' => some minutes
  | 'S' => some seconds
  | _ => none

/-- The name of a unit in messages. -/
def name : TimeUnit → String
  | days => "days"
  | hours => "hours"
  | minutes => "minutes"
  | seconds => "seconds"

/-- The unit of a name. -/
def ofName? : String → Option TimeUnit
  | "days" => some days
  | "hours" => some hours
  | "minutes" => some minutes
  | "seconds" => some seconds
  | _ => none

end TimeUnit

end XmlRecords
