/-! # Readers

A reader takes what it reads off the front of a text and returns the rest with it, or it fails.
-/

namespace XmlRecords

/-- Takes something off the front of a text, or fails. -/
abbrev Reader (α : Type) :=
  List Char → Option (α × List Char)

/-- The text behind a word that it begins with. -/
def after? : (word text : List Char) → Option (List Char)
  | [], text => some text
  | _ :: _, [] => none
  | expected :: word, char :: text => if char = expected then after? word text else none

/-- Reads a symbol. -/
def readSymbol (symbol : String) (text : List Char) : Option (List Char) :=
  after? symbol.toList text

/-- Reads one of the symbols of a list, the first that fits. -/
def readOneOf (symbol : α → String) : List α → Reader α
  | [], _ => none
  | value :: values, text =>
      match readSymbol (symbol value) text with
      | some rest => some (value, rest)
      | none => readOneOf symbol values text

/-- Reads as often as it goes, `limit` times at most. -/
def repeated (read : Reader α) : (limit : Nat) → List Char → List α × List Char
  | 0, text => ([], text)
  | limit + 1, text =>
      match read text with
      | none => ([], text)
      | some (value, rest) =>
          let (values, rest) := repeated read limit rest
          (value :: values, rest)

/-- Reads as often as it goes. A reader that succeeds takes a character at least, so it cannot
succeed more often than the text is long. -/
def many (read : Reader α) (text : List Char) : List α × List Char :=
  repeated read text.length text

/-- What comes before the first occurrence of a word, behind what was `seen` already in reverse, and
what comes behind the word. -/
def splitAtWordFrom? (word : List Char) : (seen text : List Char) → Option (List Char × List Char)
  | _, [] => none
  | seen, char :: text =>
      match after? word (char :: text) with
      | some rest => some (seen.reverse, rest)
      | none => splitAtWordFrom? word (char :: seen) text

/-- What comes before the first occurrence of a word, and what comes behind it. -/
def splitAtWord? (word : String) (text : List Char) : Option (List Char × List Char) :=
  splitAtWordFrom? word.toList [] text

end XmlRecords
