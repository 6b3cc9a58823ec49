import XmlRecords.Text.Hexadecimal
import XmlRecords.Text.Printable

/-! # Quoted text

A text in double quotes, as messages show it. Quotes and backslashes are written with a backslash,
and so are characters that do not print by themselves: tab, line feed, carriage return and NUL by a
letter or digit, all others by their code point.
-/

namespace XmlRecords

namespace Text

/-- One character of a quoted text. -/
def quoteChar (char : Char) : List Char :=
  match char with
  | '"' => ['\\', '"']
  | '\\' => ['\\', '\\']
  | '\t' => ['\\', 't']
  | '\n' => ['\\', 'n']
  | '\r' => ['\\', 'r']
  | '\x00' => ['\\', '0']
  | _ =>
      if isPrintable char then
        [char]
      else
        '\\' :: 'u' :: '\x7b' :: (Hexadecimal.digits char.toNat ++ ['\x7d'])

/-- A text in quotes. -/
def quoted (text : List Char) : String :=
  String.ofList ('"' :: (text.flatMap quoteChar ++ ['"']))

end Text

end XmlRecords
