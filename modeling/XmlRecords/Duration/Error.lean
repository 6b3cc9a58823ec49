import XmlRecords.Duration.Unit

/-! # Why a duration is refused

The causes for which a text is not read as a duration, or two durations are not combined, and the
wording of each.
-/

namespace XmlRecords

/-- A cause for refusing a duration. -/
inductive DurationError where
  /-- A field does not begin with the letter of a unit; what it begins with, empty if nothing. -/
  | unknownUnit (letter : String)
  /-- What follows the letter of a field is not a width. -/
  | malformedWidth (width : String)
  /-- A segment of the text does not have the form its piece of the format asks for. -/
  | mismatch (segment : String) (piece : String)
  /-- A unit is given a magnitude a second time. -/
  | repeatedUnit (unit : TimeUnit)
  /-- A magnitude does not fit 64 bits. -/
  | tooLarge (unit : TimeUnit) (segment : String)
deriving DecidableEq

/-- The wording of a cause. -/
def DurationError.message : DurationError → String
  | unknownUnit letter => "Unknown duration unit '" ++ letter ++ "', expected one of D, H, M, S"
  | malformedWidth width => "Field width '" ++ width ++ "' is not an integer"
  | mismatch segment piece =>
      "Duration segment '" ++ segment ++ "' does not conform to format chunk '" ++ piece ++ "'"
  | repeatedUnit unit => "A value for unit '" ++ unit.name ++ "' has already been assigned"
  | tooLarge unit segment =>
      "Value '" ++ segment ++ "' for unit '" ++ unit.name ++ "' is too large"

end XmlRecords
