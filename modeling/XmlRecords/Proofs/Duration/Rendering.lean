import Mathlib.Data.List.Chain
import XmlRecords.Proofs.Duration.Compiling

/-! # Compiling the text of a format

A format can be written as a text and compiled again. The text shows neither where a literal has
been cut in two nor which fields have a delimiter: compiling it joins the literals that stand side
by side, and gives each field in front of a literal its delimiter. So a format is read back from its
text exactly if no literals stand side by side and no delimiter is missing
(`Duration.Format.compile_inverts_render`).
-/

namespace XmlRecords

namespace Duration

/-- The character is no brace. -/
def isPlain (char : Char) : Bool :=
  char != '{' && char != '}'

theorem isPlain_iff {char : Char} : isPlain char = true ↔ char ≠ '{' ∧ char ≠ '}' := by
  rw [isPlain, Bool.and_eq_true, bne_iff_ne, bne_iff_ne]

namespace Piece

/-- There is no brace in the piece, and it is no empty literal. -/
def IsPlain : Piece → Prop
  | literal text => text ≠ "" ∧ text.toList.all isPlain
  | field spec _ => spec.toList.all isPlain

instance IsPlain.decidable : (piece : Piece) → Decidable piece.IsPlain
  | literal text => inferInstanceAs (Decidable (text ≠ "" ∧ text.toList.all isPlain))
  | field spec _ => inferInstanceAs (Decidable (spec.toList.all isPlain))

/-- Of two pieces side by side one is a field, and a field in front of a literal has the first
character of the literal as its delimiter. -/
def Meets : Piece → Piece → Prop
  | literal _, literal _ => False
  | field _ delimiter, literal text => delimiter = text.toList.head?
  | _, field _ _ => True

/-- Of two pieces side by side one is a field, and a field in front of a literal has a delimiter. -/
def IsParted : Piece → Piece → Prop
  | literal _, literal _ => False
  | field _ delimiter, literal _ => delimiter ≠ none
  | _, field _ _ => True

instance Meets.decidable : (first second : Piece) → Decidable (first.Meets second)
  | literal _, literal _ => .isFalse id
  | field _ delimiter, literal text =>
      inferInstanceAs (Decidable (delimiter = text.toList.head?))
  | literal _, field _ _ | field _ _, field _ _ => .isTrue trivial

instance IsParted.decidable : (first second : Piece) → Decidable (first.IsParted second)
  | literal _, literal _ => .isFalse id
  | field _ delimiter, literal _ => inferInstanceAs (Decidable (delimiter ≠ none))
  | literal _, field _ _ | field _ _, field _ _ => .isTrue trivial

theorem meets_field (piece : Piece) (spec : String) (delimiter : Option Char) :
    piece.Meets (field spec delimiter) := by
  cases piece <;> trivial

end Piece

namespace Format

/-- What holds of the pieces of every compiled format. -/
structure IsRegular (pieces : List Piece) : Prop where
  plain : ∀ piece ∈ pieces, piece.IsPlain
  delimited : AreDelimited pieces

/-- A run of other characters than braces gives a literal without braces, or none. -/
theorem isPlain_literalRun {run : List Char} (plain : run.all isPlain) :
    ∀ piece ∈ literalRun run, piece.IsPlain := by
  cases run with
  | nil => exact nofun
  | cons char run =>
      change ∀ piece ∈ [Piece.literal (String.ofList (char :: run))], piece.IsPlain
      rw [List.forall_mem_singleton, Piece.IsPlain, String.toList_ofList]
      refine ⟨fun empty => ?_, plain⟩
      have nothing := congrArg String.toList empty
      rw [String.toList_ofList] at nothing
      cases nothing

theorem isPlain_field {spec : List Char} (plain : spec.all isPlain)
    (delimiter : Option Char) : (Piece.field (String.ofList spec) delimiter).IsPlain := by
  rwa [Piece.IsPlain, String.toList_ofList]

/-- The characters that have been read of the piece at a position. -/
def Position.run : Position → List Char
  | .inLiteral run => run
  | .afterField spec => spec
  | .inField spec => spec

/-- Braces are never taken into a piece. -/
theorem isPlain_scan (position : Position) (source : List Char)
    (plain : position.run.all isPlain) :
    ∀ piece ∈ scan position source, piece.IsPlain := by
  have single {char : Char} (notOpening : char ≠ '{') (notClosing : char ≠ '}') :
      [char].all isPlain := by
    rw [List.all_cons, isPlain_iff.mpr ⟨notOpening, notClosing⟩]
    rfl
  fun_induction scan position source with
  | case1 run => exact isPlain_literalRun plain
  | case2 spec | case3 spec => exact List.forall_mem_singleton.mpr (isPlain_field plain none)
  | case4 run source ih | case5 run source ih =>
      exact List.forall_mem_append.mpr ⟨isPlain_literalRun plain, ih rfl⟩
  | case6 run char source notOpening notClosing ih
  | case12 run char source notOpening notClosing ih =>
      apply ih
      rw [Position.run, List.all_append, single notOpening notClosing, Bool.and_true]
      exact plain
  | case7 spec source ih | case8 spec source ih | case10 spec source ih =>
      exact List.forall_mem_cons.mpr ⟨isPlain_field plain none, ih rfl⟩
  | case9 spec char source notOpening notClosing ih =>
      refine List.forall_mem_cons.mpr ⟨isPlain_field plain (some char), ih ?_⟩
      exact single notOpening notClosing
  | case11 spec source ih => exact ih plain

/-- All formats that are compiled are regular, by what holds of the state of the scanner. -/
theorem isRegular_compile (source : String) : IsRegular (compile source).pieces where
  plain := isPlain_scan (.inLiteral []) source.toList rfl
  delimited := areDelimited_compile source

section Scan

variable {run spec text rest : List Char}

/-- Characters other than braces are added to what is being read, in a literal and in a field. -/
theorem scan_append {within : List Char → Position}
    (step : ∀ run char rest, isPlain char = true →
      scan (within run) (char :: rest) = scan (within (run ++ [char])) rest)
    (plain : text.all isPlain) :
    scan (within run) (text ++ rest) = scan (within (run ++ text)) rest := by
  induction text generalizing run with
  | nil => rw [List.nil_append, List.append_nil]
  | cons char text ih =>
      rw [List.all_cons, Bool.and_eq_true] at plain
      rw [List.cons_append, step run char _ plain.1, ih plain.2, List.append_assoc,
        List.singleton_append]

/-- Outside of braces, another character is added to the run. -/
theorem scan_inLiteral_cons (run : List Char) (char : Char) (rest : List Char)
    (plain : isPlain char = true) :
    scan (.inLiteral run) (char :: rest) = scan (.inLiteral (run ++ [char])) rest := by
  obtain ⟨notOpening, notClosing⟩ := isPlain_iff.mp plain
  rw [scan]
  · exact notOpening
  · exact notClosing

/-- Inside of braces, it is added to the field. -/
theorem scan_inField_cons (spec : List Char) (char : Char) (rest : List Char)
    (plain : isPlain char = true) :
    scan (.inField spec) (char :: rest) = scan (.inField (spec ++ [char])) rest := by
  obtain ⟨notOpening, notClosing⟩ := isPlain_iff.mp plain
  rw [scan]
  · exact notOpening
  · exact notClosing

/-- A field that has been closed is a piece; its delimiter is the next character, if that is no
brace. What comes behind it is read from new. -/
theorem scan_afterField (spec rest : List Char) :
    scan (.afterField spec) rest =
      .field (String.ofList spec) (rest.head?.filter isPlain) :: scan (.inLiteral []) rest := by
  cases rest with
  | nil => rfl
  | cons char rest =>
      by_cases opening : char = '{'
      · subst opening
        rfl
      by_cases closing : char = '}'
      · subst closing
        rfl
      · have plain : isPlain char = true := isPlain_iff.mpr ⟨opening, closing⟩
        rw [scan_inLiteral_cons [] char rest plain, List.head?_cons, Option.filter_some,
          if_pos plain, scan]
        · rfl
        · exact opening
        · exact closing

end Scan

/-- The text of the pieces, one behind the other. -/
def rendered (pieces : List Piece) : List Char :=
  pieces.flatMap fun piece => piece.render.toList

theorem toList_render (format : Format) : format.render.toList = rendered format.pieces := by
  rw [render, String.toList_join, List.flatMap_map]
  rfl

/-- A literal is scanned into the run. -/
theorem scan_literal {run : List Char} {text : String} {pieces : List Piece}
    (plain : (Piece.literal text).IsPlain) :
    scan (.inLiteral run) (rendered (.literal text :: pieces)) =
      scan (.inLiteral (run ++ text.toList)) (rendered pieces) := by
  rw [rendered, List.flatMap_cons]
  exact scan_append scan_inLiteral_cons plain.2

theorem rendered_field (spec : String) (delimiter : Option Char) (pieces : List Piece) :
    rendered (.field spec delimiter :: pieces) =
      '{' :: (spec.toList ++ '}' :: rendered pieces) := by
  rw [rendered, List.flatMap_cons, Piece.render, String.toList_append, String.toList_append,
    List.append_assoc, List.append_assoc]
  rfl

/-- The first character of a literal, if the pieces begin with one. -/
def leading? : List Piece → Option Char
  | .literal text :: _ => text.toList.head?
  | _ => none

theorem exists_toList_of_isPlain {text : String} (plain : (Piece.literal text).IsPlain) :
    ∃ first others, text.toList = first :: others ∧ isPlain first = true := by
  obtain ⟨present, plain⟩ := plain
  cases written : text.toList with
  | nil => exact absurd (String.toList_eq_nil_iff.mp written) present
  | cons first others =>
      rw [written, List.all_cons, Bool.and_eq_true] at plain
      exact ⟨first, others, rfl, plain.1⟩

/-- What comes behind a field begins with a brace, unless it begins with a literal. -/
theorem filter_head?_rendered {pieces : List Piece} (plain : ∀ piece ∈ pieces, piece.IsPlain) :
    (rendered pieces).head?.filter isPlain = leading? pieces := by
  cases pieces with
  | nil => rfl
  | cons piece pieces =>
      cases piece with
      | literal text =>
          obtain ⟨first, others, written, here⟩ :=
            exists_toList_of_isPlain (List.forall_mem_cons.mp plain).1
          rw [rendered, List.flatMap_cons, Piece.render, leading?, written, List.cons_append,
            List.head?_cons, List.head?_cons, Option.filter_some, if_pos here]
      | field spec delimiter =>
          rw [rendered_field]
          rfl

/-- A field ends the run and is scanned as a whole, with the character behind it as delimiter. -/
theorem scan_field {run : List Char} {spec : String} {delimiter : Option Char}
    {pieces : List Piece} (plain : ∀ piece ∈ .field spec delimiter :: pieces, piece.IsPlain) :
    scan (.inLiteral run) (rendered (.field spec delimiter :: pieces)) =
      literalRun run ++ .field spec (leading? pieces) ::
        scan (.inLiteral []) (rendered pieces) := by
  obtain ⟨here, behind⟩ := List.forall_mem_cons.mp plain
  rw [rendered_field, scan, scan_append scan_inField_cons here, List.nil_append, scan,
    scan_afterField, String.ofList_toList, filter_head?_rendered behind]

/-- The delimiter of a field is the first character of the literal behind it, if there is one. -/
theorem delimiter_eq_leading? {spec : String} {delimiter : Option Char} {pieces : List Piece}
    (delimited : AreDelimited (.field spec delimiter :: pieces))
    (meets : (Piece.field spec delimiter :: pieces).IsChain Piece.Meets) :
    delimiter = leading? pieces := by
  have absent (other : ∀ text others, pieces ≠ .literal text :: others) : delimiter = none := by
    refine Option.eq_none_iff_forall_ne_some.mpr fun char some => ?_
    obtain ⟨text, others, behind⟩ := delimited.1 char some
    exact other _ _ behind
  cases pieces with
  | nil => exact absent nofun
  | cons piece pieces =>
      cases piece with
      | literal text => exact (List.isChain_cons_cons.mp meets).1
      | field other stop => exact absent nofun

/-- Behind a literal comes a field or nothing. -/
theorem leading?_eq_none {text : String} {pieces : List Piece}
    (meets : (Piece.literal text :: pieces).IsChain Piece.Meets) : leading? pieces = none := by
  cases pieces with
  | nil => rfl
  | cons piece pieces =>
      cases piece with
      | literal other => exact (List.isChain_cons_cons.mp meets).1.elim
      | field spec delimiter => rfl

/-- Pieces that meet are read from their text as they are, behind literal text that has been read
before, unless they would go on with it. -/
theorem scan_rendered {pieces : List Piece} (regular : IsRegular pieces)
    (meets : pieces.IsChain Piece.Meets) {run : List Char}
    (ends : run = [] ∨ leading? pieces = none) :
    scan (.inLiteral run) (rendered pieces) = literalRun run ++ pieces := by
  induction pieces generalizing run with
  | nil =>
      rw [List.append_nil]
      rfl
  | cons piece pieces ih =>
      obtain ⟨here, plain⟩ := List.forall_mem_cons.mp regular.plain
      have behind {run : List Char} (ends : run = [] ∨ leading? pieces = none) :
          scan (.inLiteral run) (rendered pieces) = literalRun run ++ pieces :=
        ih ⟨plain, regular.delimited.2⟩ meets.tail ends
      cases piece with
      | literal text =>
          obtain ⟨first, others, written, -⟩ := exists_toList_of_isPlain here
          have nothing : run = [] := by
            refine ends.resolve_right fun none => ?_
            rw [leading?, written] at none
            cases none
          rw [scan_literal here, nothing, List.nil_append, behind (.inr (leading?_eq_none meets)),
            written, ← String.ofList_toList (s := text), written]
          rfl
      | field spec delimiter =>
          rw [scan_field regular.plain, behind (.inl rfl),
            ← delimiter_eq_leading? regular.delimited meets]
          rfl

/-- A field with the delimiter that it has in the rendered text meets what is scanned behind it. -/
theorem meets_leading {pieces : List Piece} (plain : ∀ piece ∈ pieces, piece.IsPlain)
    (spec : String) :
    ∀ piece ∈ (scan (.inLiteral []) (rendered pieces)).head?,
      (Piece.field spec (leading? pieces)).Meets piece := by
  intro piece first
  cases pieces with
  | nil => cases first
  | cons next pieces =>
      cases next with
      | literal text =>
          have here := (List.forall_mem_cons.mp plain).1
          obtain ⟨char, others, written, -⟩ := exists_toList_of_isPlain here
          obtain ⟨run, behind, read⟩ := exists_scan_inLiteral char others (rendered pieces)
          rw [scan_literal here, List.nil_append, written, read] at first
          cases first
          rw [Piece.Meets, leading?, written, String.toList_ofList]
          rfl
      | field other delimiter =>
          rw [scan_field plain] at first
          cases first
          exact Piece.meets_field _ _ _

/-- What is read from the text of pieces meets, literals being joined and delimiters added. -/
theorem isChain_scan_rendered {pieces : List Piece} (plain : ∀ piece ∈ pieces, piece.IsPlain)
    (run : List Char) :
    (scan (.inLiteral run) (rendered pieces)).IsChain Piece.Meets := by
  induction pieces generalizing run with
  | nil =>
      change (literalRun run).IsChain Piece.Meets
      cases run with
      | nil => exact .nil
      | cons char run => exact .singleton _
  | cons piece pieces ih =>
      obtain ⟨here, behind⟩ := List.forall_mem_cons.mp plain
      cases piece with
      | literal text =>
          rw [scan_literal here]
          exact ih behind (run ++ text.toList)
      | field spec delimiter =>
          rw [scan_field plain]
          have onward : (.field spec (leading? pieces) ::
              scan (.inLiteral []) (rendered pieces)).IsChain Piece.Meets :=
            List.isChain_cons.mpr ⟨meets_leading behind spec, ih behind []⟩
          cases run with
          | nil => exact onward
          | cons char run => exact List.isChain_cons_cons.mpr ⟨trivial, onward⟩

/-- Where delimiters begin the literals behind their fields, no delimiter can be the wrong one. -/
theorem IsRegular.isChain_meets {pieces : List Piece} (regular : IsRegular pieces)
    (parted : pieces.IsChain Piece.IsParted) : pieces.IsChain Piece.Meets := by
  induction pieces with
  | nil => exact .nil
  | cons piece pieces ih =>
      have onward := ih ⟨(List.forall_mem_cons.mp regular.plain).2, regular.delimited.2⟩ parted.tail
      refine List.isChain_cons.mpr ⟨fun next first => ?_, onward⟩
      have apart := (List.isChain_cons.mp parted).1 next first
      cases next with
      | field spec delimiter => exact Piece.meets_field _ _ _
      | literal text =>
          cases piece with
          | literal other => exact apart.elim
          | field spec delimiter =>
              obtain ⟨char, some⟩ := Option.ne_none_iff_exists'.mp apart
              obtain ⟨others, pieces, rfl⟩ := regular.delimited.1 char some
              cases first
              rw [Piece.Meets, some, String.toList_ofList]
              rfl

theorem isParted_of_meets {first second : Piece} (plain : second.IsPlain)
    (meets : first.Meets second) : first.IsParted second := by
  cases second with
  | field spec delimiter => cases first <;> trivial
  | literal text =>
      cases first with
      | literal other => exact meets.elim
      | field spec delimiter =>
          obtain ⟨char, others, written, -⟩ := exists_toList_of_isPlain plain
          rw [Piece.Meets, written] at meets
          rw [Piece.IsParted, meets]
          exact nofun

/-- Compiling and writing are inverse to each other on the formats that they can be. The pieces of a
compiled format have no braces and are no empty literals, and each delimiter begins the literal
behind its field. If moreover no two literals stand side by side, and each field in front of a
literal has its first character as delimiter, then the pieces are what their text is compiled into.
A compiled format is therefore compiled again from its text exactly if no two literals stand side by
side in it, and no field without delimiter in front of a literal. -/
theorem compile_inverts_render :
    (∀ source, IsRegular (compile source).pieces) ∧
      (∀ format : Format, IsRegular format.pieces → format.pieces.IsChain Piece.Meets →
        compile format.render = format) ∧
      ∀ source, compile (compile source).render = compile source ↔
        (compile source).pieces.IsChain Piece.IsParted := by
  have inverse : ∀ format : Format, IsRegular format.pieces → format.pieces.IsChain Piece.Meets →
      compile format.render = format := by
    intro format regular meets
    rw [compile, toList_render, scan_rendered regular meets (.inl rfl)]
    rfl
  refine ⟨isRegular_compile, inverse, fun source => ?_⟩
  have regular := isRegular_compile source
  constructor
  · intro again
    have meets := isChain_scan_rendered regular.plain []
    rw [← toList_render] at meets
    change (compile (compile source).render).pieces.IsChain Piece.Meets at meets
    rw [again] at meets
    exact meets.imp_of_mem_imp fun _ second _ member =>
      isParted_of_meets (regular.plain second member)
  · exact fun parted => inverse _ regular (regular.isChain_meets parted)

/-- A stray brace keeps a field apart from the literal behind it. -/
theorem compile_inverts_render_stray :
    let format : Format := ⟨[.field "H2" (some ':'), .literal ":", .field "M" none]⟩
    IsRegular format.pieces ∧ format.pieces.IsChain Piece.Meets ∧
      format.render = "\x7bH2\x7d:\x7bM\x7d" ∧ compile "\x7bH2\x7d:\x7bM\x7d" = format ∧
      (compile "\x7bH\x7d\x7dx").pieces = [.field "H" none, .literal "x"] ∧
      compile (compile "\x7bH\x7d\x7dx").render ≠ compile "\x7bH\x7d\x7dx" := by
  intro format
  obtain ⟨-, inverse, again⟩ := compile_inverts_render
  have regular : IsRegular format.pieces := by
    refine ⟨by decide, ?_, nofun, nofun, trivial⟩
    rintro delimiter ⟨⟩
    exact ⟨[], _, rfl⟩
  have meets : format.pieces.IsChain Piece.Meets := by decide
  have stray : (compile "\x7bH\x7d\x7dx").pieces = [.field "H" none, .literal "x"] := rfl
  refine ⟨regular, meets, rfl, inverse format regular meets, stray, fun same => ?_⟩
  have parted := (again "\x7bH\x7d\x7dx").mp same
  rw [stray] at parted
  revert parted
  decide

end Format

end Duration

end XmlRecords
