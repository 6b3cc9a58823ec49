import XmlRecords.Text.Blank

/-! # Patterns of dates and times

A pattern describes how a date and time are written. A directive, a percent sign with a letter,
stands for a number, a name or another part; a directive for several parts stands for the pieces it
is put together from. White space stands for any white space, and all else for itself.
-/

namespace XmlRecords

namespace Calendar

/-- The numbers that a date and time are given by. -/
inductive Quantity where
  | year
  | century
  | yearOfCentury
  | isoYear
  | isoYearOfCentury
  | quarter
  | month
  | day
  | weekFromSunday
  | weekFromMonday
  | isoWeek
  | daysFromSunday
  | numberFromMonday
  | dayOfYear
  | hour
  | hourOfHalf
  | minute
  | second
  | nanosecond
  | timestamp
deriving DecidableEq

/-- A piece of a pattern. -/
inductive Piece where
  | literal (text : List Char)
  | space
  | number (quantity : Quantity)
  /-- The name of a month; its long form is known besides the short one. -/
  | monthName (long : Bool)
  /-- The name of a day of the week; its long form is known besides the short one. -/
  | weekdayName (long : Bool)
  /-- Before or after noon. -/
  | halfOfDay
  /-- A point with a fraction of a second behind it, of a fixed number of digits if one is given. -/
  | fraction (digits : Option Nat)
  /-- A fraction of a second without a point. -/
  | bareFraction (digits : Nat)
  | zoneName
  /-- The distance from UTC; minutes may be missing, and `Z` may stand for UTC, in the lenient
  form. -/
  | offset (isLenient : Bool)
  /-- A whole point in time as RFC 3339 writes it. -/
  | timestampText
  /-- Not a directive. -/
  | malformed
deriving DecidableEq

namespace Piece

/-- Hour, minute and second. -/
def timePieces : List Piece :=
  [.number .hour, .literal [':'], .number .minute, .literal [':'], .number .second]

/-- Month, day and year of the century. -/
def shortDatePieces : List Piece :=
  [.number .month, .literal ['/'], .number .day, .literal ['/'], .number .yearOfCentury]

/-- The pieces of a directive of one letter. -/
def ofLetter : Char → List Piece
  | 'A' => [.weekdayName true]
  | 'B' => [.monthName true]
  | 'C' => [.number .century]
  | 'D' => shortDatePieces
  | 'F' => [.number .year, .literal ['-'], .number .month, .literal ['-'], .number .day]
  | 'G' => [.number .isoYear]
  | 'H' => [.number .hour]
  | 'I' => [.number .hourOfHalf]
  | 'M' => [.number .minute]
  | 'P' => [.halfOfDay]
  | 'R' => [.number .hour, .literal [':'], .number .minute]
  | 'S' => [.number .second]
  | 'T' => timePieces
  | 'U' => [.number .weekFromSunday]
  | 'V' => [.number .isoWeek]
  | 'W' => [.number .weekFromMonday]
  | 'X' => timePieces
  | 'Y' => [.number .year]
  | 'Z' => [.zoneName]
  | 'a' => [.weekdayName false]
  | 'b' => [.monthName false]
  | 'h' => [.monthName false]
  | 'c' =>
      [.weekdayName false, .space, .monthName false, .space, .number .day, .space]
        ++ timePieces ++ [.space, .number .year]
  | 'd' => [.number .day]
  | 'e' => [.number .day]
  | 'f' => [.number .nanosecond]
  | 'g' => [.number .isoYearOfCentury]
  | 'j' => [.number .dayOfYear]
  | 'k' => [.number .hour]
  | 'l' => [.number .hourOfHalf]
  | 'm' => [.number .month]
  | 'n' => [.space]
  | 'p' => [.halfOfDay]
  | 'q' => [.number .quarter]
  | 'r' =>
      [.number .hourOfHalf, .literal [':'], .number .minute, .literal [':'], .number .second,
        .space, .halfOfDay]
  | 's' => [.number .timestamp]
  | 't' => [.space]
  | 'u' => [.number .numberFromMonday]
  | 'v' => [.number .day, .literal ['-'], .monthName false, .literal ['-'], .number .year]
  | 'w' => [.number .daysFromSunday]
  | 'x' => shortDatePieces
  | 'y' => [.number .yearOfCentury]
  | 'z' => [.offset false]
  | '+' => [.timestampText]
  | '%' => [.literal ['%']]
  | _ => [.malformed]

/-- The pieces of a letter behind a mark for padding, which only single numbers can have. -/
def ofPaddedLetter (letter : Char) : List Piece :=
  match ofLetter letter with
  | [.number quantity] => [.number quantity]
  | _ => [.malformed]

/-- The pieces of the directive that a text behind a percent sign begins with, and what comes behind
it. -/
def ofDirective : List Char → List Piece × List Char
  | '-' :: letter :: rest => (ofPaddedLetter letter, rest)
  | '0' :: letter :: rest => (ofPaddedLetter letter, rest)
  | '_' :: letter :: rest => (ofPaddedLetter letter, rest)
  | '#' :: 'z' :: rest => ([.offset true], rest)
  | ':' :: ':' :: ':' :: 'z' :: rest => ([.offset false], rest)
  | ':' :: ':' :: 'z' :: rest => ([.offset false], rest)
  | ':' :: 'z' :: rest => ([.offset false], rest)
  | '.' :: 'f' :: rest => ([.fraction none], rest)
  | '.' :: '3' :: 'f' :: rest => ([.fraction (some 3)], rest)
  | '.' :: '6' :: 'f' :: rest => ([.fraction (some 6)], rest)
  | '.' :: '9' :: 'f' :: rest => ([.fraction (some 9)], rest)
  | '3' :: 'f' :: rest => ([.bareFraction 3], rest)
  | '6' :: 'f' :: rest => ([.bareFraction 6], rest)
  | '9' :: 'f' :: rest => ([.bareFraction 9], rest)
  | letter :: rest => (ofLetter letter, rest)
  | [] => ([.malformed], [])

end Piece

/-- A character that stands for itself in a pattern. -/
def isLiteral (char : Char) : Bool :=
  char != '%' && !Text.isBlank char

/-- The pieces of a pattern; the limit is that of their number. -/
def piecesWithin : (limit : Nat) → List Char → List Piece
  | _, [] => []
  | 0, _ => []
  | limit + 1, '%' :: rest =>
      let (pieces, rest) := Piece.ofDirective rest
      pieces ++ piecesWithin limit rest
  | limit + 1, char :: rest =>
      if Text.isBlank char then
        .space :: piecesWithin limit rest
      else
        let (literal, rest) := (char :: rest).span isLiteral
        .literal literal :: piecesWithin limit rest

/-- The pieces of a pattern. -/
def pieces (pattern : String) : List Piece :=
  piecesWithin pattern.toList.length pattern.toList

end Calendar

end XmlRecords
