import Mathlib.Data.Option.Basic
import XmlRecords.Proofs.Text.Reading
import XmlRecords.Xml.Prolog

/-! # Names in tags

The names of assignments are read as names without a colon, wherever a start tag stands: in the
document, or in the text of an entity. So all pieces of a text that is taken apart are named
(`isNamed_of_readTokens`, `isNamed_of_written?`).
-/

namespace XmlRecords

namespace Xml

/-- A name without a prefix, or the part of a name behind it. -/
structure IsLocalName (name : List Char) : Prop where
  begins : beginsName name = true
  plain : ∀ char ∈ name, isPlainNameChar char = true

/-- What a start tag assigns has names. -/
def Token.IsNamed : Token → Prop
  | startTag _ assignments _ _ =>
      ∀ assignment ∈ assignments, IsLocalName assignment.target.name.toList
  | _ => True

section Assignments

variable {text rest : List Char}

/-- The part of a name behind its prefix holds no colon. -/
theorem isLocalName_of_readQualifiedName {name : QualifiedName}
    (read : readQualifiedName text = some (name, rest)) : IsLocalName name.name.toList := by
  have row {text : List Char} (begins : beginsName (text.span isPlainNameChar).1 = true) :
      IsLocalName (String.ofList (text.span isPlainNameChar).1).toList := by
    rw [String.toList_ofList]
    exact ⟨begins, of_mem_span isPlainNameChar text⟩
  unfold readQualifiedName at read
  split at read
  · dsimp only at read
    split at read
    · rename_i begins
      cases read
      exact row (Bool.and_eq_true_iff.mp begins).2
    · cases read
  · rename_i name _ _ parts
    split at read
    · rename_i begins
      cases read
      have same : (text.span isPlainNameChar).1 = name := congrArg Prod.fst parts
      subst same
      exact row begins
    · cases read

/-- An assignment is a name, the equals sign and a quoted value, with white space between them. -/
theorem readAssignment_eq_some_iff {name : QualifiedName} {value : List Char} :
    readAssignment text = some ((name, value), rest) ↔
      ∃ behindName behindMark, readQualifiedName text = some (name, behindName) ∧
        readSymbol "=" (skipSpace behindName) = some behindMark ∧
          readQuoted (skipSpace behindMark) = some (value, rest) ∧
            ∀ char ∈ value, isAllowed char = true ∧ char ≠ '<' := by
  simp only [readAssignment, Option.bind_eq_bind, Option.bind_eq_some_iff, Option.pure_def,
    Prod.exists, Option.ite_none_right_eq_some, Option.some.injEq, Prod.mk.injEq,
    List.all_eq_true, Bool.and_eq_true, bne_iff_ne]
  constructor
  · rintro ⟨_, behindName, named, behindMark, marked, _, _, quoted, inside, ⟨rfl, rfl⟩, rfl⟩
    exact ⟨behindName, behindMark, named, marked, quoted, inside⟩
  · rintro ⟨behindName, behindMark, named, marked, quoted, inside⟩
    exact ⟨name, behindName, named, behindMark, marked, value, rest, quoted, inside,
      ⟨rfl, rfl⟩, rfl⟩

/-- White space must stand before an assignment, and its value is cut into segments. -/
theorem readSpacedAssignment_eq_some_iff {assignment : Assignment} :
    readSpacedAssignment text = some (assignment, rest) ↔
      ∃ behindSpace value, needSpace text = some behindSpace ∧
        readAssignment behindSpace = some ((assignment.target, value), rest) ∧
          segments value = some assignment.value := by
  obtain ⟨target, written⟩ := assignment
  simp only [readSpacedAssignment, Option.bind_eq_bind, Option.bind_eq_some_iff, Option.pure_def,
    Prod.exists, Option.some.injEq, Prod.mk.injEq, Assignment.mk.injEq]
  constructor
  · rintro ⟨behindSpace, spaced, _, value, _, assigned, _, taken, ⟨rfl, rfl⟩, rfl⟩
    exact ⟨behindSpace, value, spaced, assigned, taken⟩
  · rintro ⟨behindSpace, value, spaced, assigned, taken⟩
    exact ⟨behindSpace, spaced, target, value, rest, assigned, written, taken, ⟨rfl, rfl⟩, rfl⟩

theorem isLocalName_of_readSpacedAssignment {assignment : Assignment}
    (read : readSpacedAssignment text = some (assignment, rest)) :
    IsLocalName assignment.target.name.toList := by
  obtain ⟨_, _, _, assigned, _⟩ := readSpacedAssignment_eq_some_iff.mp read
  obtain ⟨_, _, named, _⟩ := readAssignment_eq_some_iff.mp assigned
  exact isLocalName_of_readQualifiedName named

end Assignments

section Tokens

variable {behind : Nat} {text rest : List Char} {token : Token} {tokens : List Token}

/-- Comments have no names. -/
theorem isNamed_of_readComment (read : readComment behind text = some (token, rest)) :
    token.IsNamed := by
  simp only [readComment, Option.bind_eq_bind, Option.bind_eq_some_iff, Option.pure_def,
    Prod.exists, Option.some.injEq, Prod.mk.injEq] at read
  obtain ⟨_, _, _, _, _, _, _, rfl, _⟩ := read
  trivial

theorem isNamed_of_readInstruction (read : readInstruction behind text = some (token, rest)) :
    token.IsNamed := by
  simp only [readInstruction, Option.bind_eq_bind, Option.bind_eq_some_iff, Option.pure_def,
    Prod.exists, Option.some.injEq, Prod.mk.injEq] at read
  obtain ⟨_, _, _, _, _, _, _, _, _, _, _, _, rfl, _⟩ := read
  trivial

/-- A start tag is a mark, a name, assignments and an ending, in this order. -/
theorem readStartTag_eq_some_iff :
    readStartTag behind text = some (token, rest) ↔
      ∃ behindMark name behindName ending, readSymbol "<" text = some behindMark ∧
        readQualifiedName behindMark = some (name, behindName) ∧
          readTagEnd (many readSpacedAssignment behindName).2 = some (ending, rest) ∧
            token = .startTag name (many readSpacedAssignment behindName).1 ending
              (.between behind text rest) := by
  simp only [readStartTag, Option.bind_eq_bind, Option.bind_eq_some_iff, Option.pure_def,
    Prod.exists, Option.some.injEq, Prod.mk.injEq]
  constructor
  · rintro ⟨behindMark, marked, name, behindName, named, ending, _, ended, rfl, rfl⟩
    exact ⟨behindMark, name, behindName, ending, marked, named, ended, rfl⟩
  · rintro ⟨behindMark, name, behindName, ending, marked, named, ended, rfl⟩
    exact ⟨behindMark, marked, name, behindName, named, ending, rest, ended, rfl, rfl⟩

/-- The names in a start tag are those of the element and of its attributes. -/
theorem isNamed_of_readStartTag (read : readStartTag behind text = some (token, rest)) :
    token.IsNamed := by
  obtain ⟨_, _, _, _, _, _, _, rfl⟩ := readStartTag_eq_some_iff.mp read
  intro assignment member
  obtain ⟨_, _, assigned⟩ := exists_read_of_mem_many member
  exact isLocalName_of_readSpacedAssignment assigned

/-- Every token is well named, whichever alternative it was read by. -/
theorem isNamed_of_readToken (read : readToken behind text = some (token, rest)) :
    token.IsNamed := by
  unfold readToken at read
  split at read
  · exact isNamed_of_readComment read
  · simp only [readSection, Option.bind_eq_bind, Option.bind_eq_some_iff, Option.pure_def,
      Prod.exists, Option.some.injEq, Prod.mk.injEq] at read
    obtain ⟨_, _, _, _, _, _, _, rfl, _⟩ := read
    trivial
  · exact isNamed_of_readInstruction read
  · simp only [readEndTag, Option.bind_eq_bind, Option.bind_eq_some_iff, Option.pure_def,
      Prod.exists, Option.some.injEq, Prod.mk.injEq] at read
    obtain ⟨_, _, _, _, _, _, _, rfl, _⟩ := read
    trivial
  · exact isNamed_of_readStartTag read
  · simp only [readText, Option.bind_eq_bind, Option.bind_eq_some_iff, Option.pure_def,
      Option.some.injEq, Prod.mk.injEq] at read
    obtain ⟨_, _, _, _, rfl, _⟩ := read
    trivial

/-- The induction is on the bound on the number of tokens. -/
theorem isNamed_of_readTokens {limit depth : Nat}
    (read : readTokens behind limit depth text = some (tokens, rest)) :
    ∀ token ∈ tokens, token.IsNamed := by
  induction limit generalizing depth text tokens rest with
  | zero => cases read
  | succ limit ih =>
      simp only [readTokens, Option.bind_eq_bind] at read
      split at read
      · cases read
        exact List.forall_mem_nil _
      · simp only [Option.bind_eq_some_iff, Prod.exists] at read
        obtain ⟨token, middle, here, read⟩ := read
        have first := isNamed_of_readToken here
        split at read
        · cases read
          exact List.forall_mem_singleton.mpr first
        · simp only [Option.bind_eq_some_iff, Option.pure_def, Prod.exists, Option.some.injEq,
            Prod.mk.injEq] at read
          obtain ⟨others, _, there, rfl, _⟩ := read
          exact List.forall_mem_cons.mpr ⟨first, ih there⟩

/-- The tokens of an element are its tags and those between them. -/
theorem isNamed_of_readElement (read : readElement behind text = some (tokens, rest)) :
    ∀ token ∈ tokens, token.IsNamed := by
  simp only [readElement, Option.bind_eq_bind, Option.bind_eq_some_iff, Option.pure_def,
    Prod.exists] at read
  obtain ⟨token, middle, here, read⟩ := read
  have first := isNamed_of_readStartTag here
  split at read
  · simp only [Option.bind_eq_some_iff, Prod.exists, Option.some.injEq, Prod.mk.injEq] at read
    obtain ⟨others, _, there, rfl, _⟩ := read
    exact List.forall_mem_cons.mpr ⟨first, isNamed_of_readTokens there⟩
  · cases read
    exact List.forall_mem_singleton.mpr first

end Tokens

section Prolog

variable {text rest : List Char} {type : DocumentType} {token : Token}

theorem isNamed_of_readMiscellaneous (read : readMiscellaneous text = some (token, rest)) :
    token.IsNamed := by
  simp only [readMiscellaneous] at read
  split at read
  · exact isNamed_of_readComment read
  · exact isNamed_of_readInstruction read
  · cases read

/-- What stands before and behind the root element is well named. -/
theorem isNamed_of_mem_miscellaneous :
    ∀ token ∈ (many readMiscellaneous text).1, token.IsNamed := by
  intro token member
  obtain ⟨_, _, read⟩ := exists_read_of_mem_many member
  exact isNamed_of_readMiscellaneous read

/-- The comments and instructions among the declarations of a document type are kept, and are well
named. -/
theorem isNamed_of_readDeclarations {limit : Nat}
    (read : readDeclarations limit text = some (type, rest)) :
    ∀ token ∈ type.tokens, token.IsNamed := by
  induction limit generalizing text type rest with
  | zero => cases read
  | succ limit ih =>
      simp only [readDeclarations, Option.bind_eq_bind, Option.pure_def] at read
      split at read
      · simp only [Option.bind_eq_some_iff, Prod.exists, Option.some.injEq,
          Prod.mk.injEq] at read
        obtain ⟨_, _, _, _, _, there, rfl, _⟩ := read
        exact fun token member => ih there token member
      · simp only [Option.bind_eq_some_iff, Option.some.injEq, Prod.mk.injEq] at read
        obtain ⟨_, _, rfl, _⟩ := read
        exact List.forall_mem_nil _
      · split at read
        · rename_i here
          simp only [Option.bind_eq_some_iff, Prod.exists, Option.some.injEq,
            Prod.mk.injEq] at read
          obtain ⟨_, _, there, rfl, _⟩ := read
          exact List.forall_mem_cons.mpr ⟨isNamed_of_readMiscellaneous here, ih there⟩
        · simp only [Option.bind_eq_some_iff, Prod.exists] at read
          obtain ⟨_, _, _, _, _, there⟩ := read
          exact ih there

theorem isNamed_of_readDocumentType (read : readDocumentType text = some (type, rest)) :
    ∀ token ∈ type.tokens, token.IsNamed := by
  have body {text : List Char} (read : readDocumentTypeBody text = some (type, rest)) :
      ∀ token ∈ type.tokens, token.IsNamed := by
    unfold readDocumentTypeBody at read
    split at read
    · cases read
      exact List.forall_mem_nil _
    · exact isNamed_of_readDeclarations read
    · cases read
  simp only [readDocumentType, Option.bind_eq_bind, Option.bind_eq_some_iff, Prod.exists] at read
  obtain ⟨_, _, _, _, _, _, _, read⟩ := read
  split at read
  · obtain ⟨_, _, read⟩ := Option.bind_eq_some_iff.mp read
    exact body read
  · exact body read

/-- All pieces that a text is taken apart into are named. -/
theorem isNamed_of_written? (written : written? text = some type) :
    ∀ token ∈ type.tokens, token.IsNamed := by
  have parts {before between root behind : List Token} {declared : DocumentType}
      (first : ∀ token ∈ before, token.IsNamed) (inside : ∀ token ∈ declared.tokens, token.IsNamed)
      (next : ∀ token ∈ between, token.IsNamed) (element : ∀ token ∈ root, token.IsNamed)
      (last : ∀ token ∈ behind, token.IsNamed) :
      ∀ token ∈ before ++ declared.tokens ++ between ++ root ++ behind, token.IsNamed := by
    simp only [List.forall_mem_append]
    exact ⟨⟨⟨⟨first, inside⟩, next⟩, element⟩, last⟩
  simp only [written?, Option.bind_eq_bind, Option.pure_def] at written
  -- The declaration of the format and the document type may both be missing.
  split at written
  all_goals
    obtain ⟨text, -, written⟩ := Option.bind_eq_some_iff.mp written
    split at written
    · simp only [Option.bind_eq_some_iff, Option.some.injEq, Prod.exists] at written
      obtain ⟨declared, _, type, _, _, element, _, _, rfl⟩ := written
      exact parts isNamed_of_mem_miscellaneous (isNamed_of_readDocumentType type)
        isNamed_of_mem_miscellaneous (isNamed_of_readElement element) isNamed_of_mem_miscellaneous
    · simp only [Option.bind_eq_some_iff, Option.some.injEq, Prod.exists, Prod.mk.injEq] at written
      obtain ⟨declared, _, ⟨rfl, rfl⟩, _, _, element, _, _, rfl⟩ := written
      exact parts isNamed_of_mem_miscellaneous (List.forall_mem_nil _)
        isNamed_of_mem_miscellaneous (isNamed_of_readElement element) isNamed_of_mem_miscellaneous

end Prolog

end Xml

end XmlRecords
