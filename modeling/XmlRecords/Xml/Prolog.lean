import XmlRecords.Xml.Content

/-! # Around the root element

What may come before and behind the root element: the declaration of the format, comments,
processing instructions, and the document type with the entities that it declares.
-/

namespace XmlRecords

namespace Xml

/-- Reads white space, which may be missing only before the end of the declaration. -/
def spaceOrEnd (text : List Char) : Option (List Char) :=
  if text.isEmpty || (readSymbol "?>" text).isSome then some text else needSpace text

/-- Reads an assignment whose name begins with a word, and the white space behind it. -/
def readDeclared (word : String) (text : List Char) : Option (List Char) := do
  let _ ← readSymbol word text
  let (_, rest) ← readAssignment text
  return rest

/-- Reads the declaration of the format, in which only the version is not optional. -/
def readDeclaration (text : List Char) : Option (List Char) := do
  let rest ← readSymbol "<?xml" text
  let rest ← spaceOrEnd (← readDeclared "version" (← spaceOrEnd rest))
  let rest ←
    if (readSymbol "encoding" rest).isSome then
      spaceOrEnd (← readDeclared "encoding" rest)
    else
      some rest
  let rest ←
    if (readSymbol "standalone" rest).isSome then readDeclared "standalone" rest else some rest
  readSymbol "?>" (skipSpace rest)

/-- Reads a comment or a processing instruction, with white space before it. -/
def readMiscellaneous (text : List Char) : Option (Token × List Char) :=
  let text := skipSpace text
  match text with
  | '<' :: '!' :: _ => readComment 0 text
  | '<' :: '?' :: _ => readInstruction 0 text
  | _ => none

/-- Reads the name of something outside of the document: behind `SYSTEM` one quoted text, behind
`PUBLIC` two. -/
def readExternal (text : List Char) : Option (List Char) :=
  match readSymbol "SYSTEM" text with
  | some rest => do
      let (_, rest) ← readQuoted (← needSpace rest)
      return rest
  | none => do
      let (_, rest) ← readQuoted (← needSpace (← readSymbol "PUBLIC" text))
      let (_, rest) ← readQuoted (← needSpace rest)
      return rest

/-- Reads the mark of a parameter entity, if there is one; the white space behind it is needed. -/
def readParameterMark (text : List Char) : Option (Bool × List Char) :=
  match text with
  | '%' :: rest => (needSpace rest).map (true, ·)
  | rest => some (false, rest)

/-- Reads the notation behind the name of something outside of the document. -/
def readNotation (text : List Char) : Option (List Char) :=
  match readSymbol "NDATA" (skipSpace text) with
  | some rest => do
      let (_, rest) ← readName (← needSpace rest)
      return rest
  | none => some text

/-- Reads what an entity of a name stands for: a quoted text, or something outside of the document,
which is not an entity here. -/
def readEntityValue (name : String) (isParameter : Bool) (text : List Char) :
    Option (Option Entity × List Char) :=
  match readQuoted text with
  | some (value, rest) => some (some ⟨name, value, rest.length + 1⟩, rest)
  | none => do
      let rest ← readExternal text
      let rest ← if isParameter then some rest else readNotation rest
      return (none, rest)

/-- Reads the declaration of an entity. -/
def readEntity (text : List Char) : Option (Option Entity × List Char) := do
  let (isParameter, rest) ← readParameterMark (← needSpace (← readSymbol "<!ENTITY" text))
  let (name, rest) ← readName rest
  let (entity, rest) ← readEntityValue name isParameter (← needSpace rest)
  let rest ← readSymbol ">" (skipSpace rest)
  return (entity, rest)

/-- What a document type declares, and the comments and instructions that stand in it. -/
structure DocumentType where
  entities : List Entity
  tokens : List Token

/-- A declaration whose content does not matter. -/
def isSkipped (text : List Char) : Bool :=
  (readSymbol "<!ELEMENT" text).isSome || (readSymbol "<!ATTLIST" text).isSome
    || (readSymbol "<!NOTATION" text).isSome

/-- Reads declarations up to the closing bracket; the limit is that of their number. -/
def readDeclarations : (limit : Nat) → Reader DocumentType
  | 0 => fun _ => none
  | limit + 1 => fun text =>
      let text := skipSpace text
      match text with
      | '<' :: '!' :: 'E' :: 'N' :: _ => do
          let (entity, rest) ← readEntity text
          let (others, rest) ← readDeclarations limit rest
          return ({ others with entities := entity.toList ++ others.entities }, rest)
      | ']' :: rest => do
          return (⟨[], []⟩, ← readSymbol ">" (skipSpace rest))
      | _ =>
          match readMiscellaneous text with
          | some (token, rest) => do
              let (others, rest) ← readDeclarations limit rest
              return ({ others with tokens := token :: others.tokens }, rest)
          | none => do
              guard (isSkipped text)
              let (_, rest) ← splitAtWord? ">" text
              readDeclarations limit rest

/-- Reads the end of a document type, with its declarations in brackets if there are any. -/
def readDocumentTypeBody (text : List Char) : Option (DocumentType × List Char) :=
  match text with
  | '>' :: rest => some (⟨[], []⟩, rest)
  | '[' :: rest => readDeclarations rest.length rest
  | _ => none

/-- Reads a document type. -/
def readDocumentType (text : List Char) : Option (DocumentType × List Char) := do
  let rest ← needSpace (← readSymbol "<!DOCTYPE" text)
  let (_, rest) ← readName rest
  let rest := skipSpace rest
  let rest ←
    if rest.head? = some 'S' || rest.head? = some 'P' then readExternal rest else some rest
  readDocumentTypeBody (skipSpace rest)

/-- A text without the mark of its encoding. -/
def withoutEncodingMark : List Char → List Char
  | '\uFEFF' :: rest => rest
  | text => text

/-- A whole text, as it is written: the entities that it declares, and its pieces. -/
def written? (text : List Char) : Option DocumentType := do
  let text := withoutEncodingMark text
  let text ← if (readSymbol "<?xml " text).isSome then readDeclaration text else some text
  let (before, text) := many readMiscellaneous text
  let text := skipSpace text
  let (type, text) ←
    if (readSymbol "<!DOCTYPE" text).isSome then readDocumentType text else some (⟨[], []⟩, text)
  let (between, text) := many readMiscellaneous text
  let (root, text) ← readElement 0 (skipSpace text)
  let (behind, text) := many readMiscellaneous text
  guard (skipSpace text).isEmpty
  return ⟨type.entities, before ++ type.tokens ++ between ++ root ++ behind⟩

end Xml

end XmlRecords
