import XmlRecords.Xml.Assembly
import XmlRecords.Xml.Content

/-! # Resolving references

References in text and in attribute values are replaced by what they stand for, and line ends are
normalised. The text of an entity is read as content wherever it is referred to. An entity may refer
to further entities, ten levels deep; what one reference stands for may contain 255 more.
-/

namespace XmlRecords

namespace Xml

/-- The deepest nesting of entities. -/
def entityDepth : Nat :=
  10

/-- How many references may stand inside of what one reference stands for. -/
def entityBudget : Nat :=
  255

/-- The entity of a name, by its first declaration. -/
def entity? (entities : List Entity) (name : String) : Option Entity :=
  entities.find? fun entity => entity.name = name

/-- How references to entities are resolved at some depth. -/
structure Resolver where
  /-- The references stand inside of an entity. -/
  isInside : Bool
  /-- Adds the content of an entity. -/
  addContent : String → Assembly → Option Assembly
  /-- The characters of an entity in an attribute value, and how many references are left. -/
  chars : String → Nat → Option (List Char × Nat)

/-! ## Text -/

/-- Appends a character to a text, kept in reverse. A line end of two characters becomes one line
feed, and so does a carriage return that is followed by anything else or by nothing at all. -/
def appendChar (isLast : Bool) : List Char → Char → List Char
  | '\r' :: before, char =>
      if isLast && char = '\r' then
        '\n' :: '\n' :: before
      else if char = '\n' then
        '\n' :: before
      else
        char :: '\n' :: before
  | text, char => if isLast && char = '\r' then '\n' :: text else char :: text

/-- Appends a run of characters to a text, kept in reverse. -/
def appendRun (isLast : Bool) : List Char → List Char → List Char
  | text, [] => text
  | text, char :: run => appendRun isLast (appendChar (isLast && run.isEmpty) text char) run

/-- A section with its line ends normalised. -/
def sectionText (content : List Char) : String :=
  String.ofList (appendRun true [] content).reverse

/-- Appends a run behind a character reference: its first character is taken as it is. -/
def appendBehindReference (isLast : Bool) (text : List Char) : List Char → List Char
  | [] => text
  | char :: run => appendRun isLast (char :: text) run

/-- Adds a text that is kept in reverse, unless it is empty. -/
def addReversed (markup : String) (text : List Char) (assembly : Assembly) : Assembly :=
  if text.isEmpty then assembly else assembly.addText (String.ofList text.reverse) markup

/-- Adds a text, resolving its references. Characters that are referred to directly are taken as
they are; inside of entities line ends are normalised for them too.

On the way there is the text since the last entity, in reverse, and whether a direct reference came
last. -/
def expandText (resolver : Resolver) (markup : String) :
    (text : List Char) → (behindReference : Bool) → List Segment → Assembly → Option Assembly
  | text, _, [], assembly => some (addReversed markup text assembly)
  | text, behindReference, .run chars :: segments, assembly =>
      let append := if behindReference then appendBehindReference else appendRun
      expandText resolver markup (append segments.isEmpty text chars) false segments assembly
  | text, _, .reference char :: segments, assembly =>
      if resolver.isInside then
        expandText resolver markup (appendChar segments.isEmpty text char) false segments assembly
      else
        expandText resolver markup (char :: text) true segments assembly
  | text, _, .entity name :: segments, assembly => do
      let assembly ← resolver.addContent name (addReversed markup text assembly)
      expandText resolver markup [] false segments assembly

/-! ## Attribute values -/

/-- A run of an attribute value: each line end and tab becomes a space. -/
def spacedRun : List Char → List Char
  | [] => []
  | '\r' :: '\n' :: run => ' ' :: spacedRun run
  | char :: run => (if isSpace char then ' ' else char) :: spacedRun run

/-- Resolves the references of an attribute value, of which there is a budget. Characters that are
referred to directly are taken as they are; inside of entities white space becomes spaces for them
too, and `<` may not be written by a reference. -/
def expandValue (resolver : Resolver) : List Segment → Nat → Option (List Char × Nat)
  | [], budget => some ([], budget)
  | .run chars :: segments, budget => do
      let (others, budget) ← expandValue resolver segments budget
      return (spacedRun chars ++ others, budget)
  | .reference char :: segments, budget => do
      guard !(resolver.isInside && char = '<')
      let (others, budget) ← expandValue resolver segments budget
      return ((if resolver.isInside && isSpace char then ' ' else char) :: others, budget)
  | .entity name :: segments, budget => do
      let (chars, budget) ← resolver.chars name budget
      let (others, budget) ← expandValue resolver segments budget
      return (chars ++ others, budget)

/-! ## Pieces of content -/

/-- Adds the assignments of a start tag. -/
def expandAssignments (resolver : Resolver) :
    List Assignment → Assembly → Option Assembly
  | [], assembly => some assembly
  | assignment :: assignments, assembly => do
      let (value, budget) ← expandValue resolver assignment.value assembly.budget
      let assembly ← { assembly with budget := budget }.assign assignment.target
        (String.ofList value)
      expandAssignments resolver assignments assembly

/-- Adds a piece of content. -/
def addToken (source : Array Char) (resolver : Resolver) (assembly : Assembly) :
    Token → Option Assembly
  | .startTag name assignments ending span => do
      guard (name.qualifier != "xmlns")
      let assembly ← expandAssignments resolver assignments assembly.beginTag
      assembly.openElement source name ending span
  | .endTag name span => assembly.closeElement source name span
  | .text segments span => expandText resolver (span.markup source) [] false segments assembly
  | .section content span => some (assembly.addText (sectionText content) (span.markup source))
  | .comment content span => some (assembly.addNode (.comment content (span.markup source)))
  | .instruction target content span =>
      some (assembly.addNode (.instruction target content (span.markup source)))

/-- Adds pieces of content, one after another. -/
def addTokens (source : Array Char) (resolver : Resolver) :
    List Token → Assembly → Option Assembly
  | [], assembly => some assembly
  | token :: tokens, assembly => do
      addTokens source resolver tokens (← addToken source resolver assembly token)

/-! ## Entities -/

/-- Adds the content of an entity, which takes one from the budget. What comes in it behind an end
tag without a start tag is not read. -/
def Entity.addContent (source : Array Char) (resolver : Resolver) (entity : Entity)
    (assembly : Assembly) : Option Assembly := do
  guard (assembly.budget ≠ 0)
  let (tokens, _) ← readContent entity.behind entity.value
  let inside ← addTokens source resolver tokens
    { assembly with budget := assembly.budget - 1, hasStarted := false }
  return { inside with hasStarted := assembly.hasStarted }

/-- The characters of an entity in an attribute value. -/
def Entity.chars (resolver : Resolver) (entity : Entity) (budget : Nat) :
    Option (List Char × Nat) := do
  guard (budget ≠ 0)
  expandValue resolver (← segments entity.value) (budget - 1)

/-- Resolves the references inside of entities, which may nest `depth` levels deeper. -/
def Resolver.inside (source : Array Char) (entities : List Entity) : (depth : Nat) → Resolver
  | 0 =>
      { isInside := true
        addContent := fun _ _ => none
        chars := fun _ _ => none }
  | depth + 1 =>
      let inner := Resolver.inside source entities depth
      { isInside := true
        addContent := fun name assembly => do
          (← entity? entities name).addContent source inner assembly
        chars := fun name budget => do (← entity? entities name).chars inner budget }

/-- Resolves the references of the text itself. Each of them has a budget of its own, to which it
does not count. -/
def Resolver.outside (source : Array Char) (entities : List Entity) : Resolver :=
  let inner := Resolver.inside source entities entityDepth
  { isInside := false
    addContent := fun name assembly =>
      inner.addContent name { assembly with budget := entityBudget + 1 }
    chars := fun name budget =>
      (inner.chars name (entityBudget + 1)).map fun (chars, _) => (chars, budget) }

end Xml

end XmlRecords
