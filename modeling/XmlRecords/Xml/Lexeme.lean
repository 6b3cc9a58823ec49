import XmlRecords.Text.Hexadecimal
import XmlRecords.Text.Numeral
import XmlRecords.Text.Reader
import XmlRecords.Xml.Char
import XmlRecords.Xml.Syntax

/-! # The words of XML

Readers for names, references and quoted values.
-/

namespace XmlRecords

namespace Xml

/-- The text without white space in front. -/
def skipSpace (text : List Char) : List Char :=
  text.dropWhile isSpace

/-- The text behind white space, of which there has to be some. -/
def needSpace : List Char → Option (List Char)
  | [] => none
  | char :: text => if isSpace char then some (skipSpace text) else none

/-- Reads a name; colons count as any other character of it. -/
def readName : List Char → Option (String × List Char)
  | [] => none
  | char :: text =>
      if isNameStart char then
        let (name, rest) := (char :: text).span isNameChar
        some (String.ofList name, rest)
      else
        none

/-- The characters can begin a name. -/
def beginsName : List Char → Bool
  | [] => false
  | char :: _ => isNameStart char

/-- A character of a name other than the colon. -/
def isPlainNameChar (char : Char) : Bool :=
  char != ':' && isNameChar char

/-- Reads a name with an optional prefix before a colon. -/
def readQualifiedName (text : List Char) : Option (QualifiedName × List Char) :=
  match text.span isPlainNameChar with
  | (qualifier, ':' :: text) =>
      let (name, rest) := text.span isPlainNameChar
      if (qualifier.isEmpty || beginsName qualifier) && beginsName name then
        some (⟨String.ofList qualifier, String.ofList name⟩, rest)
      else
        none
  | (name, rest) =>
      if beginsName name then some (⟨"", String.ofList name⟩, rest) else none

/-- The character of a code point, for references. There has to be a code point, and numbers that
are none stand for the replacement character. -/
def charOfCode (digits : List Char) (code : Nat) : Option Char :=
  if digits.isEmpty || decide (UInt32.size ≤ code) then
    none
  else
    let char := if code.isValidChar then Char.ofNat code else '\uFFFD'
    if isAllowed char then some char else none

/-- Reads the number of a character reference. -/
def readCode : List Char → Option (Char × List Char)
  | 'x' :: text =>
      let (digits, rest) := text.span Hexadecimal.isDigit
      (charOfCode digits (Hexadecimal.value digits)).map (·, rest)
  | text =>
      let (digits, rest) := text.span Char.isDigit
      (charOfCode digits (Numeral.value digits)).map (·, rest)

/-- What a name refers to: one of five characters, or an entity. -/
def Segment.ofName : String → Segment
  | "quot" => reference '"'
  | "amp" => reference '&'
  | "apos" => reference '\''
  | "lt" => reference '<'
  | "gt" => reference '>'
  | name => entity name

/-- Reads a reference behind its ampersand. -/
def readReference (text : List Char) : Option (Segment × List Char) := do
  let (segment, rest) ← match text with
    | '#' :: text => (readCode text).map fun (char, rest) => (Segment.reference char, rest)
    | text => (readName text).map fun (name, rest) => (Segment.ofName name, rest)
  return (segment, ← readSymbol ";" rest)

/-- Takes a text apart at its references; the limit is that of their number. -/
def segmentsWithin : (limit : Nat) → List Char → Option (List Segment)
  | _, [] => some []
  | 0, _ => none
  | limit + 1, '&' :: text => do
      let (segment, rest) ← readReference text
      return segment :: (← segmentsWithin limit rest)
  | limit + 1, text => do
      let (chars, rest) := text.span (· != '&')
      return .run chars :: (← segmentsWithin limit rest)

/-- Takes a text apart at its references. -/
def segments (text : List Char) : Option (List Segment) :=
  segmentsWithin text.length text

/-- Reads a quote, and the text up to the same quote. -/
def readQuoted : List Char → Option (List Char × List Char)
  | [] => none
  | quote :: text =>
      if quote = '"' || quote = '\'' then
        match text.span (· != quote) with
        | (_, []) => none
        | (content, _ :: rest) => some (content, rest)
      else
        none

/-- Reads a name, an equals sign and a quoted value, in which no tag begins. -/
def readAssignment (text : List Char) : Option ((QualifiedName × List Char) × List Char) := do
  let (name, rest) ← readQualifiedName text
  let rest ← readSymbol "=" (skipSpace rest)
  let (value, rest) ← readQuoted (skipSpace rest)
  if value.all fun char => isAllowed char && char != '<' then
    return ((name, value), rest)
  else
    none

end Xml

end XmlRecords
