import XmlRecords.Binary64.Reading
import XmlRecords.Json.Number
import XmlRecords.Text.Hexadecimal
import XmlRecords.Text.Reader

/-! # Reading JSON

A text is one value with white space around it. Lists and objects may lie within one another 127
levels deep.
-/

namespace XmlRecords

namespace Json

/-- The white space of JSON. -/
def isSpace (char : Char) : Bool :=
  char = ' ' || char = '\t' || char = '\n' || char = '\r'

/-- The text without white space in front. -/
def skipSpace (text : List Char) : List Char :=
  text.dropWhile isSpace

/-- Reads four hexadecimal digits. -/
def readUnit (text : List Char) : Option (Nat × List Char) :=
  let digits := text.take 4
  if digits.length = 4 && digits.all Hexadecimal.isDigit then
    some (Hexadecimal.value digits, text.drop 4)
  else
    none

/-- A number of the first half of a surrogate pair. -/
def isHighSurrogate (unit : Nat) : Bool :=
  decide (0xD800 ≤ unit) && decide (unit < 0xDC00)

/-- A number of the second half of a surrogate pair. -/
def isLowSurrogate (unit : Nat) : Bool :=
  decide (0xDC00 ≤ unit) && decide (unit < 0xE000)

/-- Reads a character behind `\u`; one beyond `\uFFFF` is written as a surrogate pair. -/
def readCode (text : List Char) : Option (Char × List Char) := do
  let (unit, rest) ← readUnit text
  if isHighSurrogate unit then
    let (low, rest) ← readUnit (← readSymbol "\\u" rest)
    if isLowSurrogate low then
      return (Char.ofNat (0x10000 + 0x400 * (unit - 0xD800) + (low - 0xDC00)), rest)
    else
      none
  else if isLowSurrogate unit then
    none
  else
    return (Char.ofNat unit, rest)

/-- Reads a character behind a backslash. -/
def readEscape : Reader Char
  | '"' :: rest => some ('"', rest)
  | '\\' :: rest => some ('\\', rest)
  | '/' :: rest => some ('/', rest)
  | 'b' :: rest => some ('\x08', rest)
  | 'f' :: rest => some ('\x0c', rest)
  | 'n' :: rest => some ('\n', rest)
  | 'r' :: rest => some ('\r', rest)
  | 't' :: rest => some ('\t', rest)
  | 'u' :: rest => readCode rest
  | _ => none

/-- Reads the characters of a string up to its closing quote; the limit is that of their number.
Control characters are written as escapes only. -/
def readChars : (limit : Nat) → Reader (List Char)
  | 0, _ => none
  | _ + 1, [] => none
  | _ + 1, '"' :: rest => some ([], rest)
  | limit + 1, '\\' :: rest => do
      let (char, rest) ← readEscape rest
      let (chars, rest) ← readChars limit rest
      return (char :: chars, rest)
  | limit + 1, char :: rest =>
      if char.toNat < 0x20 then
        none
      else do
        let (chars, rest) ← readChars limit rest
        return (char :: chars, rest)

/-- Reads a string behind its opening quote. -/
def readString (text : List Char) : Option (String × List Char) :=
  (readChars (text.length + 1) text).map fun (chars, rest) => (String.ofList chars, rest)

/-- Reads one digit at least. -/
def readDigits (text : List Char) : Option (List Char × List Char) :=
  let (digits, rest) := text.span Char.isDigit
  if digits.isEmpty then none else some (digits, rest)

/-- Reads the digits before the point; a zero in front stands alone. -/
def readWhole (text : List Char) : Option (List Char × List Char) :=
  match readDigits text with
  | some ('0' :: _ :: _, _) => none
  | result => result

/-- Reads the fraction, if there is one. -/
def readFraction : Reader (List Char)
  | '.' :: rest => readDigits rest
  | text => some ([], text)

/-- Reads the exponent, if there is one. -/
def readExponent : Reader (Option Int)
  | [] => some (none, [])
  | mark :: rest =>
      if mark = 'e' ∨ mark = 'E' then do
        let (isNegative, rest) := Binary64.readSign rest
        let (digits, rest) ← readDigits rest
        let exponent : Int := Numeral.value digits
        return (some (if isNegative then -exponent else exponent), rest)
      else
        some (none, mark :: rest)

/-- Takes a minus. -/
def takeMinus : List Char → Bool × List Char
  | '-' :: rest => (true, rest)
  | text => (false, text)

/-- Reads a number. -/
def readNumber (text : List Char) : Option (Json × List Char) := do
  let (isNegative, rest) := takeMinus text
  let (whole, rest) ← readWhole rest
  let (fraction, rest) ← readFraction rest
  let (exponent, rest) ← readExponent rest
  return (← Decimal.toJson? ⟨isNegative, whole, fraction, exponent⟩, rest)

/-- Reads one of the three words. -/
def readWord (text : List Char) : Option (Json × List Char) :=
  match readSymbol "null" text, readSymbol "true" text, readSymbol "false" text with
  | some rest, _, _ => some (null, rest)
  | _, some rest, _ => some (boolean true, rest)
  | _, _, some rest => some (boolean false, rest)
  | _, _, _ => none

/-- The text begins with a number. -/
def beginsNumber : List Char → Bool
  | [] => false
  | char :: _ => char = '-' || char.isDigit

/-- Reads the name of a field and the colon behind it. -/
def readName (text : List Char) : Option (String × List Char) := do
  let (name, rest) ← readString (← readSymbol "\"" (skipSpace text))
  return (name, ← readSymbol ":" (skipSpace rest))

mutual

/-- Reads a value with white space in front. The limit is that of calls, and the depth that of lists
and objects within one another. -/
def readValue : (limit depth : Nat) → List Char → Option (Json × List Char)
  | 0, _, _ => none
  | limit + 1, depth, text =>
      match skipSpace text, depth with
      | '"' :: rest, _ => (readString rest).map fun (content, rest) => (Json.string content, rest)
      | '[' :: _, 0 => none
      | '[' :: rest, depth + 1 =>
          match readSymbol "]" (skipSpace rest) with
          | some rest => some (list [], rest)
          | none => do
              let (items, rest) ← readItems limit depth rest
              return (list items, rest)
      | '\x7b' :: _, 0 => none
      | '\x7b' :: rest, depth + 1 =>
          match readSymbol "\x7d" (skipSpace rest) with
          | some rest => some (object [], rest)
          | none => do
              let (fields, rest) ← readFields limit depth rest
              return (object fields, rest)
      | text, _ => if beginsNumber text then readNumber text else readWord text

/-- Reads the items of a list and its closing bracket. -/
def readItems : (limit depth : Nat) → List Char → Option (List Json × List Char)
  | 0, _, _ => none
  | limit + 1, depth, text => do
      let (item, rest) ← readValue limit depth text
      match skipSpace rest with
      | ',' :: rest =>
          let (items, rest) ← readItems limit depth rest
          return (item :: items, rest)
      | ']' :: rest => return ([item], rest)
      | _ => none

/-- Reads the fields of an object and its closing brace. -/
def readFields : (limit depth : Nat) → List Char → Option (List (String × Json) × List Char)
  | 0, _, _ => none
  | limit + 1, depth, text => do
      let (name, rest) ← readName text
      let (value, rest) ← readValue limit depth rest
      match skipSpace rest with
      | ',' :: rest =>
          let (fields, rest) ← readFields limit depth rest
          return ((name, value) :: fields, rest)
      | '\x7d' :: rest => return ([(name, value)], rest)
      | _ => none

end

/-- The value that a text is, with the fields of objects as they are written. Every second call
takes a character, so the length of the text bounds their number. -/
def parse? (source : String) : Option Json :=
  let text := source.toList
  match readValue (2 * text.length + 2) 127 text with
  | some (value, rest) => if (skipSpace rest).isEmpty then some value else none
  | none => none

end Json

end XmlRecords
