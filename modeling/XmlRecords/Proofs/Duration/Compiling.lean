import XmlRecords.Duration.Format

/-! # What compiled formats look like

A field gets a delimiter only when a literal character comes right behind its closing brace, and
that character then begins the next literal. So in a compiled format a delimiter is never missing
from the text behind its field.
-/

namespace XmlRecords

namespace Duration

/-- The character that ends a field of open width. -/
def Piece.delimiter? : Piece → Option Char
  | literal _ => none
  | field _ delimiter => delimiter

namespace Format

/-- A delimiter begins the literal behind its field. -/
def AreDelimited : List Piece → Prop
  | [] => True
  | piece :: pieces =>
      (∀ delimiter ∈ piece.delimiter?, ∃ text others,
        pieces = .literal (String.ofList (delimiter :: text)) :: others) ∧ AreDelimited pieces

theorem areDelimited_nil : AreDelimited [] :=
  trivial

/-- Literal text that has begun is a piece, whatever comes next. -/
theorem exists_scan_inLiteral (first : Char) (run source : List Char) :
    ∃ text others, scan (.inLiteral (first :: run)) source =
      .literal (String.ofList (first :: text)) :: others := by
  induction source generalizing run with
  | nil => exact ⟨run, [], rfl⟩
  | cons char source ih =>
      by_cases opening : char = '{'
      · subst opening
        exact ⟨run, _, rfl⟩
      by_cases closing : char = '}'
      · subst closing
        exact ⟨run, _, rfl⟩
      · have onward : scan (.inLiteral (first :: run)) (char :: source) =
            scan (.inLiteral (first :: (run ++ [char]))) source := by
          rw [scan, List.cons_append]
          · exact opening
          · exact closing
        rw [onward]
        exact ih (run ++ [char])

theorem AreDelimited.literalRun {pieces : List Piece} (delimited : AreDelimited pieces)
    (run : List Char) : AreDelimited (literalRun run ++ pieces) := by
  cases run with
  | nil => exact delimited
  | cons char run => exact ⟨nofun, delimited⟩

/-- In what is read from any position, each delimiter begins the literal behind its field. -/
theorem areDelimited_scan (position : Position) (source : List Char) :
    AreDelimited (scan position source) := by
  fun_induction scan position source with
  | case1 run =>
      rw [← List.append_nil (Format.literalRun run)]
      exact areDelimited_nil.literalRun run
  | case2 spec | case3 spec => exact ⟨nofun, areDelimited_nil⟩
  | case4 run source ih | case5 run source ih => exact ih.literalRun run
  | case6 run char source _ _ ih => exact ih
  | case7 spec source ih | case8 spec source ih | case10 spec source ih => exact ⟨nofun, ih⟩
  | case9 spec char source _ _ ih =>
      refine ⟨fun delimiter same => ?_, ih⟩
      cases same
      exact exists_scan_inLiteral char [] source
  | case11 spec source ih => exact ih
  | case12 spec char source _ _ ih => exact ih

theorem areDelimited_compile (source : String) : AreDelimited (compile source).pieces :=
  areDelimited_scan (.inLiteral []) source.toList

end Format

end Duration

end XmlRecords
