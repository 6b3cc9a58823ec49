import XmlRecords.Duration.Error
import XmlRecords.Text.Numeral

/-! # Duration formats

A format describes how the text of a duration is written. Text outside braces stands for itself. A
field in braces, such as `{H}` or `{H2}`, is a number: it names the unit by its letter, and may fix
the width. So `h{H2}:{M};` is the literal `h`, two digits of hours, the literal `:`, minutes up to
the delimiter `;`, and the literal `;`.

Compiling a format never fails: what is between the braces is kept as written and is looked at when
a text is read by it.
-/

namespace XmlRecords

namespace Duration

/-- A piece of a format. -/
inductive Piece where
  /-- Text that stands for itself. -/
  | literal (text : String)
  /-- A number: what stands between the braces, and the literal character that follows them. -/
  | field (spec : String) (delimiter : Option Char)
deriving DecidableEq

namespace Piece

/-- A piece as it is written in a format. -/
def render : Piece → String
  | literal text => text
  | field spec _ => "\x7b" ++ spec ++ "\x7d"

/-- The piece is a number. -/
def isField : Piece → Bool
  | literal _ => false
  | field _ _ => true

/-- The unit that a field names by its first character. -/
def fieldUnit (spec : String) : Except DurationError TimeUnit :=
  match spec.toList with
  | [] => .error (.unknownUnit "")
  | letter :: _ =>
      match TimeUnit.ofLetter? letter with
      | some unit => .ok unit
      | none => .error (.unknownUnit (String.ofList [letter]))

/-- The width that a field fixes after its first character. No digits, or a width of zero, leave
the width open. -/
def fieldWidth (spec : String) : Except DurationError (Option Nat) :=
  let digits := spec.toList.drop 1
  if !Numeral.isDigits digits || Numeral.value digits ≥ UInt64.size then
    .error (.malformedWidth (String.ofList digits))
  else if Numeral.value digits = 0 then
    .ok none
  else
    .ok (some (Numeral.value digits))

end Piece

/-- A format is its pieces in order. -/
structure Format where
  pieces : List Piece
deriving DecidableEq

namespace Format

/-- Where the reader of a format stands. -/
inductive Position where
  /-- In literal text, with the run read so far. -/
  | inLiteral (run : List Char)
  /-- Behind a closing brace, with the field that it closed. -/
  | afterField (spec : List Char)
  /-- Between braces, with the part of the field read so far. -/
  | inField (spec : List Char)

/-- The literal of a run of characters; an empty run is no piece. -/
def literalRun (run : List Char) : List Piece :=
  if run.isEmpty then [] else [.literal (String.ofList run)]

/-- Reads a format from a position on. A field is closed by either brace, an opening one being the
start of the next field, or by the end. A closing brace outside of a field ends the run of literal
text and is dropped. -/
def scan : Position → List Char → List Piece
  | .inLiteral run, [] => literalRun run
  | .afterField spec, [] => [.field (String.ofList spec) none]
  | .inField spec, [] => [.field (String.ofList spec) none]
  | .inLiteral run, '{' :: rest => literalRun run ++ scan (.inField []) rest
  | .inLiteral run, '}' :: rest => literalRun run ++ scan (.inLiteral []) rest
  | .inLiteral run, char :: rest => scan (.inLiteral (run ++ [char])) rest
  | .afterField spec, '{' :: rest => .field (String.ofList spec) none :: scan (.inField []) rest
  | .afterField spec, '}' :: rest => .field (String.ofList spec) none :: scan (.inLiteral []) rest
  | .afterField spec, char :: rest =>
      .field (String.ofList spec) (some char) :: scan (.inLiteral [char]) rest
  | .inField spec, '{' :: rest => .field (String.ofList spec) none :: scan (.inField []) rest
  | .inField spec, '}' :: rest => scan (.afterField spec) rest
  | .inField spec, char :: rest => scan (.inField (spec ++ [char])) rest

/-- The format that a text describes. -/
def compile (source : String) : Format :=
  ⟨scan (.inLiteral []) source.toList⟩

/-- A format as it is written. -/
def render (format : Format) : String :=
  String.join (format.pieces.map Piece.render)

end Format

end Duration

end XmlRecords
