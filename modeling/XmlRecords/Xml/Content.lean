import XmlRecords.Xml.Lexeme

/-! # The pieces of a text

Readers for tags and all that stands between them. The content of an element goes up to its end tag.
The text of an entity is content as well, but need not have as many end tags as start tags; it may
even end inside of a tag. All readers are given how many characters of the document come `behind`
the text that is read.
-/

namespace XmlRecords

namespace Xml

section Tokens

variable (behind : Nat)

/-- Reads a comment. Two hyphens do not occur inside of it, nor one at its end. -/
def readComment (text : List Char) : Option (Token × List Char) := do
  let (content, rest) ← splitAtWord? "-->" (← readSymbol "<!--" text)
  guard (content.all isAllowed && (splitAtWord? "--" content).isNone
    && content.getLast? != some '-')
  return (.comment (String.ofList content) (.between behind text rest), rest)

/-- Reads a processing instruction. White space behind the target is not part of the content. -/
def readInstruction (text : List Char) : Option (Token × List Char) := do
  guard (readSymbol "<?xml " text).isNone
  let (target, rest) ← readName (← readSymbol "<?" text)
  let (content, rest) ← splitAtWord? "?>" (skipSpace rest)
  guard (content.all isAllowed)
  return (.instruction target (String.ofList content) (.between behind text rest), rest)

/-- Reads a section of characters that stand for themselves. -/
def readSection (text : List Char) : Option (Token × List Char) := do
  let (content, rest) ← splitAtWord? "]]>" (← readSymbol "<![CDATA[" text)
  guard (content.all isAllowed)
  return (.section content (.between behind text rest), rest)

/-- Reads text up to the next tag. The end of a section does not occur in it. -/
def readText (text : List Char) : Option (Token × List Char) := do
  let (content, rest) := text.span (· != '<')
  guard (content.all isAllowed && (splitAtWord? "]]>" content).isNone)
  return (.text (← segments content) (.between behind text rest), rest)

/-- Reads an assignment with white space before it. -/
def readSpacedAssignment (text : List Char) : Option (Assignment × List Char) := do
  let ((target, value), rest) ← readAssignment (← needSpace text)
  return (⟨target, ← segments value⟩, rest)

/-- Reads the end of a start tag. A text that ends inside of the tag does not end in white space. -/
def readTagEnd (text : List Char) : Option (TagEnd × List Char) :=
  if text.isEmpty then
    some (.missing, [])
  else
    match skipSpace text with
    | '>' :: rest => some (.opened, rest)
    | '/' :: '>' :: rest => some (.closed, rest)
    | _ => none

/-- Reads a start tag. -/
def readStartTag (text : List Char) : Option (Token × List Char) := do
  let (name, rest) ← readQualifiedName (← readSymbol "<" text)
  let (assignments, rest) := many readSpacedAssignment rest
  let (ending, rest) ← readTagEnd rest
  return (.startTag name assignments ending (.between behind text rest), rest)

/-- Reads an end tag. -/
def readEndTag (text : List Char) : Option (Token × List Char) := do
  let (name, rest) ← readQualifiedName (← readSymbol "</" text)
  let rest ← readSymbol ">" (skipSpace rest)
  return (.endTag name (.between behind text rest), rest)

/-- Reads one piece. -/
def readToken (text : List Char) : Option (Token × List Char) :=
  match text with
  | '<' :: '!' :: '-' :: _ => readComment behind text
  | '<' :: '!' :: _ => readSection behind text
  | '<' :: '?' :: _ => readInstruction behind text
  | '<' :: '/' :: _ => readEndTag behind text
  | '<' :: _ => readStartTag behind text
  | _ => readText behind text

/-- Reads content in which `depth` elements are open, up to the end tag of the element around it or
to the end of the text; the limit is that of the number of pieces. -/
def readTokens : (limit depth : Nat) → Reader (List Token)
  | 0, _ => fun _ => none
  | limit + 1, depth => fun text =>
      if text.isEmpty then
        some ([], [])
      else do
        let (token, rest) ← readToken behind text
        match token.depthBehind depth with
        | none => return ([token], rest)
        | some depth =>
            let (tokens, rest) ← readTokens limit depth rest
            return (token :: tokens, rest)

/-- Reads content up to the end tag of the element around it or to the end of the text. -/
def readContent (text : List Char) : Option (List Token × List Char) :=
  readTokens behind (text.length + 1) 0 text

/-- Reads an element. -/
def readElement (text : List Char) : Option (List Token × List Char) := do
  let (token, rest) ← readStartTag behind text
  if token.depthBehind 0 = some 1 then
    let (tokens, rest) ← readContent behind rest
    return (token :: tokens, rest)
  else
    return ([token], rest)

end Tokens

end Xml

end XmlRecords
