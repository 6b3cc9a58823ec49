import XmlRecords.Calendar.Fields
import XmlRecords.Text.Numeral

/-! # Reading a text by a pattern

Every piece of a pattern takes its part off the front of the text and adds what it says to what is
known. Numbers skip white space in front, and take as many digits as they may have at most.
-/

namespace XmlRecords

namespace Calendar

/-- The size of a text in UTF-8. -/
def byteSize (text : List Char) : Nat :=
  text.foldl (fun size char => size + char.utf8Size) 0

/-- Takes `least` digits at least, and `most` at most if there is such a bound. -/
def scanNumber (least : Nat) (most : Option Nat) (text : List Char) :
    Except Fault (Int × List Char) :=
  let digits := (match most with
    | some count => text.take count
    | none => text).takeWhile Char.isDigit
  if byteSize text < least then
    .error .tooShort
  else if digits.length < least then
    .error .invalid
  else if Int64.maxValue.toInt < Numeral.value digits then
    .error .outOfRange
  else
    .ok (Numeral.value digits, text.drop digits.length)

/-- The digits that a number may have at most when it has no sign. -/
def Quantity.width : Quantity → Option Nat
  | year => some 4
  | isoYear => some 4
  | dayOfYear => some 3
  | nanosecond => some 9
  | timestamp => none
  | quarter => some 1
  | daysFromSunday => some 1
  | numberFromMonday => some 1
  | _ => some 2

/-- A quantity that may have a sign, and then any number of digits. -/
def Quantity.isSigned : Quantity → Bool
  | year => true
  | isoYear => true
  | _ => false

/-- Takes the number of a quantity. -/
def scanQuantity (quantity : Quantity) (text : List Char) : Except Fault (Int × List Char) :=
  let text := Text.trimStart text
  match quantity.isSigned, text with
  | true, '-' :: rest => do
      let (value, rest) ← scanNumber 1 none rest
      return (-value, rest)
  | true, '+' :: rest => scanNumber 1 none rest
  | _, _ => scanNumber 1 quantity.width text

/-- The names of the months: three letters and the others. -/
def monthNames : List (String × String) :=
  [("jan", "uary"), ("feb", "ruary"), ("mar", "ch"), ("apr", "il"), ("may", ""), ("jun", "e"),
    ("jul", "y"), ("aug", "ust"), ("sep", "tember"), ("oct", "ober"), ("nov", "ember"),
    ("dec", "ember")]

/-- The names of the days of the week, Monday first: three letters and the others. -/
def weekdayNames : List (String × String) :=
  [("mon", "day"), ("tue", "sday"), ("wed", "nesday"), ("thu", "rsday"), ("fri", "day"),
    ("sat", "urday"), ("sun", "day")]

/-- The text begins with a word, in letters of either case. -/
def beginsWith (word : String) (text : List Char) : Bool :=
  (text.take word.length).map Char.toLower = word.toList

/-- Takes one of a list of names, and answers with its index. Of a long name the letters behind the
third may be missing. -/
def scanName (names : List (String × String)) (isLong : Bool) (text : List Char) :
    Except Fault (Nat × List Char) :=
  if byteSize text < 3 then
    .error .tooShort
  else
    match names.findIdx? fun name => beginsWith name.1 text with
    | none => .error .invalid
    | some index =>
        let rest := text.drop 3
        let others := ((names[index]?).map Prod.snd).getD ""
        if isLong && beginsWith others rest then
          .ok (index, rest.drop others.length)
        else
          .ok (index, rest)

/-- Takes the half of the day; true is the afternoon. -/
def scanHalf (text : List Char) : Except Fault (Bool × List Char) :=
  if byteSize text < 2 then
    .error .tooShort
  else if beginsWith "am" text then
    .ok (false, text.drop 2)
  else if beginsWith "pm" text then
    .ok (true, text.drop 2)
  else
    .error .invalid

/-- Takes a fraction of a second with a fixed number of digits, in nanoseconds. -/
def scanFixedFraction (digits : Nat) (text : List Char) : Except Fault (Nat × List Char) := do
  let (value, rest) ← scanNumber digits (some digits) text
  return (value.toNat * Nat.pow 10 (9 - digits), rest)

/-- Takes a fraction of a second, in nanoseconds; digits behind the ninth do not count. -/
def scanFraction (text : List Char) : Except Fault (Nat × List Char) := do
  let (value, rest) ← scanNumber 1 (some 9) text
  let digits := text.length - rest.length
  return (value.toNat * Nat.pow 10 (9 - digits), rest.dropWhile Char.isDigit)

/-- Takes the sign of a distance from UTC; true is a minus. -/
def scanSign : List Char → Except Fault (Bool × List Char)
  | [] => .error .tooShort
  | '+' :: rest => .ok (false, rest)
  | '-' :: rest => .ok (true, rest)
  | '−' :: rest => .ok (true, rest)
  | _ => .error .invalid

/-- Takes the hours of a distance from UTC, of two digits. -/
def scanOffsetHours (text : List Char) : Except Fault (Nat × List Char) :=
  match text with
  | tens :: units :: rest =>
      if tens.isDigit && units.isDigit then
        .ok (Numeral.value [tens, units], rest)
      else
        .error .invalid
  | _ => .error (if byteSize text < 2 then .tooShort else .invalid)

/-- Takes the minutes of a distance from UTC, of two digits. In the lenient form they may be missing
at the end of the text. -/
def scanOffsetMinutes (isLenient : Bool) (text : List Char) : Except Fault (Nat × List Char) :=
  match text with
  | tens :: units :: rest =>
      if tens.isDigit && units.isDigit then
        if Numeral.digitValue tens < 6 then
          .ok (Numeral.value [tens, units], rest)
        else
          .error .outOfRange
      else
        .error .invalid
  | [] => if isLenient then .ok (0, []) else .error .tooShort
  | _ => .error (if byteSize text < 2 then .tooShort else .invalid)

/-- Colons and white space, which may stand between hours and minutes. -/
def isOffsetSeparator (char : Char) : Bool :=
  char = ':' || Text.isBlank char

/-- Takes a distance from UTC, in seconds. -/
def scanSignedOffset (isLenient : Bool) (text : List Char) : Except Fault (Int × List Char) := do
  let (isMinus, rest) ← scanSign text
  let (hours, rest) ← scanOffsetHours rest
  let (minutes, rest) ← scanOffsetMinutes isLenient (rest.dropWhile isOffsetSeparator)
  let seconds : Int := hours * 3600 + minutes * 60
  return (if isMinus then -seconds else seconds, rest)

/-- Takes a distance from UTC, for which `Z` may stand if `hasZulu` is set. -/
def scanOffset (hasZulu isLenient : Bool) (text : List Char) : Except Fault (Int × List Char) :=
  match hasZulu, text with
  | true, 'Z' :: rest => .ok (0, rest)
  | true, 'z' :: rest => .ok (0, rest)
  | _, _ => scanSignedOffset isLenient text

/-- Takes a literal text. -/
def scanLiteral (literal text : List Char) : Except Fault (List Char) :=
  if byteSize text < byteSize literal then
    .error .tooShort
  else if literal.isPrefixOf text then
    .ok (text.drop literal.length)
  else
    .error .invalid

/-- Takes the part of a piece, other than of a whole point in time. -/
def scanPart (piece : Piece) (fields : Fields) (text : List Char) :
    Except Fault (Fields × List Char) :=
  match piece with
  | .literal literal => do return (fields, ← scanLiteral literal text)
  | .space => .ok (fields, Text.trimStart text)
  | .number quantity => do
      let (value, rest) ← scanQuantity quantity text
      return (← fields.add quantity value, rest)
  | .monthName isLong => do
      let (index, rest) ← scanName monthNames isLong text
      return (← fields.addMonth (index + 1), rest)
  | .weekdayName isLong => do
      let (index, rest) ← scanName weekdayNames isLong text
      return (← fields.addWeekday index, rest)
  | .halfOfDay => do
      let (isAfternoon, rest) ← scanHalf text
      return (← fields.addHalf isAfternoon, rest)
  | .fraction digits =>
      match text with
      | '.' :: rest => do
          let (nanosecond, rest) ← match digits with
            | some count => scanFixedFraction count rest
            | none => scanFraction rest
          return (← fields.addNanosecond nanosecond, rest)
      | _ => .ok (fields, text)
  | .bareFraction digits =>
      if byteSize text < digits then
        .error .tooShort
      else do
        let (nanosecond, rest) ← scanFixedFraction digits text
        return (← fields.addNanosecond nanosecond, rest)
  | .zoneName => .ok (fields, text.dropWhile fun char => !Text.isBlank char)
  | .offset isLenient => do
      let (offset, rest) ← scanOffset isLenient isLenient (Text.trimStart text)
      return (← fields.addOffset offset, rest)
  | .timestampText => .error .badPattern
  | .malformed => .error .badPattern

/-- Takes the parts of pieces, none of them a whole point in time. -/
def scanParts : List Piece → Fields → List Char → Except Fault (Fields × List Char)
  | [], fields, text => .ok (fields, text)
  | piece :: pieces, fields, text => do
      let (fields, rest) ← scanPart piece fields text
      scanParts pieces fields rest

/-- The date of a whole point in time. -/
def timestampDate : List Piece :=
  [.number .year, .space, .literal ['-'], .number .month, .space, .literal ['-'], .number .day]

/-- The time of a whole point in time. -/
def timestampTime : List Piece :=
  [.number .hour, .space, .literal [':'], .number .minute, .space, .literal [':'],
    .number .second, .fraction none, .space]

/-- Takes the character between the date and the time. -/
def scanDivider : List Char → Except Fault (List Char)
  | [] => .error .tooShort
  | char :: rest => if char = 'T' || char = 't' || char = ' ' then .ok rest else .error .invalid

/-- Takes the distance from UTC at the end of a whole point in time. -/
def scanTimestampOffset (text : List Char) : Except Fault (Int × List Char) :=
  if beginsWith "utc" text then .ok (0, text.drop 3) else scanOffset true false text

/-- Takes a whole point in time. -/
def scanTimestamp (fields : Fields) (text : List Char) : Except Fault (Fields × List Char) := do
  let (fields, rest) ← scanParts timestampDate fields text
  let (fields, rest) ← scanParts timestampTime fields (← scanDivider rest)
  let (offset, rest) ← scanTimestampOffset (Text.trimStart rest)
  return (← fields.addOffset offset, rest)

/-- Takes the parts of pieces. -/
def scanPieces : List Piece → Fields → List Char → Except Fault (Fields × List Char)
  | [], fields, text => .ok (fields, text)
  | piece :: pieces, fields, text => do
      let (fields, rest) ←
        if piece = .timestampText then scanTimestamp fields text else scanPart piece fields text
      scanPieces pieces fields rest

/-- What a text says when it is read by a pattern as a whole. -/
def scan (pattern text : String) : Except Fault Fields := do
  let (fields, rest) ← scanPieces (pieces pattern) .unknown text.toList
  if rest.isEmpty then return fields else throw .tooLong

end Calendar

end XmlRecords
