import XmlRecords.Text.Ranges

/-! # White space

The characters with the Unicode property White_Space, and the text without those at its ends.
-/

namespace XmlRecords

namespace Text

/-- The white space of Unicode. -/
def blank : Ranges :=
  [(0x9, 0xD), (0x20, 0x20), (0x85, 0x85), (0xA0, 0xA0), (0x1680, 0x1680), (0x2000, 0x200A),
    (0x2028, 0x2029), (0x202F, 0x202F), (0x205F, 0x205F), (0x3000, 0x3000)]

/-- The character is white space. -/
def isBlank (char : Char) : Bool :=
  blank.contains char

/-- The text without white space in front. -/
def trimStart (text : List Char) : List Char :=
  text.dropWhile isBlank

/-- The text without white space at its end. -/
def trimEnd (text : List Char) : List Char :=
  (text.reverse.dropWhile isBlank).reverse

/-- The text without white space at either end. -/
def trim (text : List Char) : List Char :=
  trimEnd (trimStart text)

/-- Splits a text at white space, an unfinished word being read. -/
def wordsFrom : List Char → List Char → List (List Char)
  | word, [] => if word.isEmpty then [] else [word]
  | word, char :: rest =>
      if isBlank char then
        if word.isEmpty then wordsFrom [] rest else word :: wordsFrom [] rest
      else
        wordsFrom (word ++ [char]) rest

/-- The words of a text: its longest runs without white space, in order. -/
def words (text : List Char) : List (List Char) :=
  wordsFrom [] text

end Text

end XmlRecords
