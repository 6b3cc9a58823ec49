/-! # XML as it is written

The structure of an XML text before references are resolved and elements are put together: names
with their prefixes, text and attribute values with the references in them, and the tags and other
pieces that a text consists of.
-/

namespace XmlRecords

namespace Xml

/-- A name and the prefix before its colon, which is empty when there is none. -/
structure QualifiedName where
  qualifier : String
  name : String
deriving DecidableEq

/-- A part of a text or an attribute value. -/
inductive Segment where
  /-- Characters that stand for themselves. -/
  | run (chars : List Char)
  /-- A character that is written as a reference. -/
  | reference (char : Char)
  /-- A reference to an entity. -/
  | entity (name : String)
deriving DecidableEq

/-- An attribute or a namespace declaration of a start tag. -/
structure Assignment where
  target : QualifiedName
  value : List Segment
deriving DecidableEq

/-- A stretch of a document. Places are given by the number of characters behind them, up to the end
of the document. -/
structure Span where
  /-- The place where the stretch begins. -/
  start : Nat
  /-- The place where it ends. -/
  stop : Nat
deriving DecidableEq

namespace Span

/-- The stretch between what is left of a text at two places; the text has some more characters
`behind` it. -/
def between (behind : Nat) (text rest : List Char) : Span :=
  ⟨text.length + behind, rest.length + behind⟩

/-- The characters of a stretch of a document. -/
def markup (source : Array Char) (span : Span) : String :=
  let chars := source.extract (source.size - span.start) (source.size - span.stop)
  String.ofList chars.toList

end Span

/-- How a start tag ends. -/
inductive TagEnd where
  /-- The content of the element follows. -/
  | opened
  /-- The element has no content. -/
  | closed
  /-- The text ends inside of the tag. -/
  | missing
deriving DecidableEq

/-- A piece of a text. -/
inductive Token where
  | startTag (name : QualifiedName) (assignments : List Assignment) (ending : TagEnd) (span : Span)
  | endTag (name : QualifiedName) (span : Span)
  | text (segments : List Segment) (span : Span)
  /-- A section whose characters all stand for themselves. -/
  | section (content : List Char) (span : Span)
  | comment (content : String) (span : Span)
  | instruction (target content : String) (span : Span)
deriving DecidableEq

/-- How many elements are open behind a piece of content; none is the answer for the end tag of an
element that was opened before the content. -/
def Token.depthBehind (depth : Nat) : Token → Option Nat
  | startTag _ _ .opened _ => some (depth + 1)
  | endTag _ _ => if depth = 0 then none else some (depth - 1)
  | _ => some depth

/-- An entity and the text that it stands for. -/
structure Entity where
  name : String
  value : List Char
  /-- How many characters of the document come behind the text. -/
  behind : Nat
deriving DecidableEq

end Xml

end XmlRecords
