import XmlRecords.Duration.Basic
import XmlRecords.Duration.Format

/-! # Reading a duration by a format

A text is first cut into one segment for each piece of the format, counting characters, and then
each segment is read by its piece. What is left of the text behind the last piece is ignored.
-/

namespace XmlRecords

namespace Duration

namespace Piece

/-- Cuts the segment of a piece off the front of a text. A literal takes as many characters as it
has, a field of fixed width its width, and any other field all up to its delimiter, or the whole
text when the delimiter does not come. -/
def cut (piece : Piece) (text : List Char) : Except DurationError (List Char × List Char) :=
  match piece with
  | literal expected => .ok (text.splitAt expected.toList.length)
  | field spec delimiter => do
      match ← fieldWidth spec, delimiter with
      | some width, _ => .ok (text.splitAt width)
      | none, some stop => .ok (text.span (· != stop))
      | none, none => .ok (text, [])

/-- Reads the segment that a piece has cut. A literal must be met exactly and sets no unit. A field
sets its unit to the number its digits denote; an empty segment is zero. -/
def read (piece : Piece) (segment : List Char) : Except DurationError Duration :=
  match piece with
  | literal expected =>
      if String.ofList segment = expected then
        .ok unset
      else
        .error (.mismatch (String.ofList segment) piece.render)
  | field spec _ => do
      let unit ← fieldUnit spec
      let _ ← fieldWidth spec
      if Numeral.isDigits segment then
        match Numeral.value64? segment with
        | some magnitude => .ok (single unit magnitude)
        | none => .error (.tooLarge unit (String.ofList segment))
      else
        .error (.mismatch (String.ofList segment) piece.render)

end Piece

namespace Format

/-- One segment of the text for each piece, in order. -/
def segmentsFrom : List Piece → List Char → Except DurationError (List (List Char))
  | [], _ => .ok []
  | piece :: pieces, text => do
      let (segment, rest) ← piece.cut text
      let segments ← segmentsFrom pieces rest
      .ok (segment :: segments)

/-- The segments that a format cuts a text into. -/
def segments (format : Format) (text : String) : Except DurationError (List (List Char)) :=
  segmentsFrom format.pieces text.toList

/-- Reads a segment by its piece and merges it into what was read before. -/
def mergeSegment (read : Duration) (pair : Piece × List Char) : Except DurationError Duration := do
  read.merge (← pair.1.read pair.2)

/-- Reads a text by a format: the durations of its segments merged from left to right. -/
def read (format : Format) (text : String) : Except DurationError Duration := do
  let segments ← format.segments text
  (format.pieces.zip segments).foldlM mergeSegment unset

end Format

end Duration

end XmlRecords
