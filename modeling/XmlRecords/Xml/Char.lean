import XmlRecords.Text.Ranges

/-! # Characters of XML

The classes of characters by which an XML text is read: white space, the characters that may occur
at all, and those of names.
-/

namespace XmlRecords

namespace Xml

/-- White space. -/
def isSpace (char : Char) : Bool :=
  char = ' ' || char = '\t' || char = '\n' || char = '\r'

/-- A character that may occur in a text: no control character other than white space, and no
noncharacter at the end of the first plane. -/
def isAllowed (char : Char) : Bool :=
  if char.toNat < 32 then isSpace char else char.toNat != 0xFFFE && char.toNat != 0xFFFF

/-- The characters that a name can begin with. -/
def nameStart : Text.Ranges :=
  [(0x3A, 0x3A), (0x41, 0x5A), (0x5F, 0x5F), (0x61, 0x7A), (0xC0, 0xD6), (0xD8, 0xF6),
    (0xF8, 0x2FF), (0x370, 0x37D), (0x37F, 0x1FFF), (0x200C, 0x200D), (0x2070, 0x218F),
    (0x2C00, 0x2FEF), (0x3001, 0xD7FF), (0xF900, 0xFDCF), (0xFDF0, 0xFFFD), (0x10000, 0xEFFFF)]

/-- The characters that a name can only go on with. -/
def nameExtra : Text.Ranges :=
  [(0x2D, 0x2E), (0x30, 0x39), (0xB7, 0xB7), (0x300, 0x36F), (0x203F, 0x2040)]

/-- A character that a name can begin with, the colon among them. -/
def isNameStart (char : Char) : Bool :=
  nameStart.contains char

/-- A character that a name can go on with. -/
def isNameChar (char : Char) : Bool :=
  nameStart.contains char || nameExtra.contains char

end Xml

end XmlRecords
