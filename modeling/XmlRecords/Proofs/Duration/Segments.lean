import Mathlib.Data.List.TakeDrop
import XmlRecords.Proofs.Duration.Reading
import XmlRecords.Proofs.Text.Reading

/-! # The segments of a text

A format cuts a text into segments from left to right, one for each of its pieces, and fails only
for a field whose width is not written as a number. Each segment is taken off the text that the
segments before it have left, by the rule of its piece, so that nothing is lost between two segments
and nothing comes twice (`Duration.Format.segments_exact`).
-/

namespace XmlRecords

namespace Duration

namespace Piece

/-- The rule by which a piece cuts its segment off the text that is left. -/
inductive Cuts : Piece → List Char → List Char → Prop
  | literal {expected : String} {left : List Char} :
      Cuts (.literal expected) left (left.take (min expected.toList.length left.length))
  | fixed {spec : String} {delimiter : Option Char} {left : List Char}
      (isFixed : 0 < (field spec delimiter).width) :
      Cuts (.field spec delimiter) left
        (left.take (min (field spec delimiter).width left.length))
  | delimited {spec : String} {stop : Char} {segment rest : List Char}
      (isOpen : (field spec (some stop)).width = 0) (first : stop ∉ segment) :
      Cuts (.field spec (some stop)) (segment ++ stop :: rest) segment
  | whole {spec : String} {delimiter : Option Char} {left : List Char}
      (isOpen : (field spec delimiter).width = 0) (absent : ∀ stop ∈ delimiter, stop ∉ left) :
      Cuts (.field spec delimiter) left left

/-- The piece is a field of open width, and its delimiter does not come any more. -/
def Exhausts : Piece → List Char → Prop
  | literal _, _ => False
  | field spec delimiter, left =>
      (field spec delimiter).width = 0 ∧ ∀ stop ∈ delimiter, stop ∉ left

theorem take_min_length (count : Nat) (left : List Char) :
    left.take (min count left.length) = left.take count := by
  rw [List.take_eq_take_iff, Nat.min_assoc, Nat.min_self]

theorem cuts_of_span {spec : String} {stop : Char} {left segment rest : List Char}
    (isOpen : (field spec (some stop)).width = 0)
    (cut : left.span (· != stop) = (segment, rest)) :
    segment ++ rest = left ∧ (field spec (some stop)).Cuts left segment ∧
      ((field spec (some stop)).Exhausts left → rest = []) := by
  have split : segment ++ rest = left := by
    rw [← append_span (· != stop) left, cut]
  have before : ∀ char ∈ segment, (char != stop) = true := by
    have inside := of_mem_span (· != stop) left
    rwa [cut] at inside
  have first : ∀ char ∈ rest.head?, (char != stop) = false := by
    have outside := of_mem_head?_span (· != stop) left
    rwa [cut] at outside
  have apart : stop ∉ segment := fun member => bne_iff_ne.mp (before stop member) rfl
  subst split
  cases rest with
  | nil =>
      rw [List.append_nil]
      refine ⟨rfl, .whole isOpen ?_, fun _ => rfl⟩
      rintro _ ⟨⟩
      exact apart
  | cons char rest =>
      obtain rfl : char = stop := bne_eq_false_iff_eq.mp (first char rfl)
      refine ⟨rfl, .delimited isOpen apart, fun exhausts => ?_⟩
      exact absurd (List.mem_append_right _ List.mem_cons_self) (exhausts.2 char rfl)

/-- What a piece cuts off stands in front of what it leaves, and is cut by its rule. -/
theorem cuts_of_cut {piece : Piece} {left segment rest : List Char}
    (cut : piece.cut left = .ok (segment, rest)) :
    segment ++ rest = left ∧ piece.Cuts left segment ∧ (piece.Exhausts left → rest = []) := by
  cases piece with
  | literal expected =>
      rw [Piece.cut, List.splitAt_eq, Except.ok.injEq, Prod.mk.injEq] at cut
      obtain ⟨rfl, rfl⟩ := cut
      refine ⟨List.take_append_drop _ _, ?_, False.elim⟩
      rw [← take_min_length]
      exact .literal
  | field spec delimiter =>
      have width := fieldWidth_of_isSized (exists_cut_iff.mp ⟨_, cut⟩)
      by_cases isOpen : (field spec delimiter).width = 0
      · rw [if_pos isOpen] at width
        rw [cut_of_open width, Except.ok.injEq] at cut
        cases delimiter with
        | none =>
            cases cut
            have absent : ∀ stop ∈ (none : Option Char), stop ∉ left :=
              fun stop some => absurd some (Option.not_mem_none stop)
            exact ⟨List.append_nil _, .whole isOpen absent, fun _ => rfl⟩
        | some stop => exact cuts_of_span isOpen cut
      · rw [if_neg isOpen] at width
        rw [cut_of_fixed width, Except.ok.injEq, Prod.mk.injEq] at cut
        obtain ⟨rfl, rfl⟩ := cut
        refine ⟨List.take_append_drop _ _, ?_, fun exhausts => absurd exhausts.1 isOpen⟩
        have fixed : (field spec delimiter).Cuts left _ := .fixed (Nat.pos_of_ne_zero isOpen)
        rwa [take_min_length] at fixed

end Piece

namespace Format

/-- The error is that of the first field whose width is no number. -/
def FirstMalformed (pieces : List Piece) (cause : DurationError) : Prop :=
  Outcome.FirstFault (fun _ piece => piece.IsSized)
    (fun _ piece cause =>
      ¬piece.IsSized ∧ cause = .malformedWidth (String.ofList piece.writtenWidth))
    pieces cause

theorem segmentsFrom_eq_error_iff {pieces : List Piece} {left : List Char}
    {cause : DurationError} :
    segmentsFrom pieces left = .error cause ↔ FirstMalformed pieces cause := by
  induction pieces generalizing left with
  | nil => exact ⟨nofun, fun first => (Outcome.not_firstFault_nil first).elim⟩
  | cons piece pieces ih =>
      rw [FirstMalformed, Outcome.firstFault_cons_iff, segmentsFrom]
      simp only [Outcome.bind_eq_error, Piece.cut_eq_error_iff, reduceCtorEq, and_false,
        exists_false, or_false, ih]
      refine or_congr_right ⟨?_, ?_⟩
      · rintro ⟨parts, cut, behind⟩
        exact ⟨Piece.exists_cut_iff.mp ⟨parts, cut⟩, behind⟩
      · rintro ⟨sized, behind⟩
        obtain ⟨parts, cut⟩ := Piece.exists_cut_iff.mpr sized
        exact ⟨parts, cut, behind⟩

/-- The segments of a text, each in front of what is left behind it, begin the text. -/
theorem isPrefix_of_segmentsFrom {pieces : List Piece} {left : List Char}
    {segments : List (List Char)} (cut : segmentsFrom pieces left = .ok segments) :
    segments.flatten <+: left := by
  induction pieces generalizing left segments with
  | nil =>
      cases cut
      exact List.nil_prefix
  | cons piece pieces ih =>
      simp only [segmentsFrom, Outcome.bind_eq_ok, Except.ok.injEq] at cut
      obtain ⟨⟨segment, rest⟩, here, others, behind, rfl⟩ := cut
      obtain ⟨rfl, -, -⟩ := Piece.cuts_of_cut here
      rw [List.flatten_cons, List.prefix_append_right_inj]
      exact ih behind

/-- Each piece cuts its segment off what the segments before it have left. -/
theorem exists_cuts_of_segmentsFrom {before : List Piece} {piece : Piece} {behind : List Piece}
    {left : List Char} {segments : List (List Char)}
    (cut : segmentsFrom (before ++ piece :: behind) left = .ok segments) :
    ∃ earlier segment later, segments = earlier ++ segment :: later ∧
      earlier.length = before.length ∧ piece.Cuts (left.drop earlier.flatten.length) segment ∧
      (piece.Exhausts (left.drop earlier.flatten.length) → ∀ other ∈ later, other = []) := by
  induction before generalizing left segments with
  | nil =>
      simp only [List.nil_append, segmentsFrom, Outcome.bind_eq_ok, Except.ok.injEq] at cut
      obtain ⟨⟨segment, rest⟩, here, later, onward, rfl⟩ := cut
      obtain ⟨-, cuts, exhausted⟩ := Piece.cuts_of_cut here
      refine ⟨[], segment, later, rfl, rfl, cuts, fun exhausts => ?_⟩
      rw [exhausted exhausts] at onward
      exact List.flatten_eq_nil_iff.mp (List.prefix_nil.mp (isPrefix_of_segmentsFrom onward))
  | cons first before ih =>
      simp only [List.cons_append, segmentsFrom, Outcome.bind_eq_ok, Except.ok.injEq] at cut
      obtain ⟨⟨taken, rest⟩, here, others, onward, rfl⟩ := cut
      obtain ⟨rfl, -, -⟩ := Piece.cuts_of_cut here
      obtain ⟨earlier, segment, later, rfl, length, cuts⟩ := ih onward
      refine ⟨taken :: earlier, segment, later, rfl, congrArg (· + 1) length, ?_⟩
      rw [List.flatten_cons, List.length_append, List.drop_length_add_append]
      exact cuts

/-- Cutting a text into segments fails exactly if the width of some field is no number, and the
error is that of the first such field, whatever the text is. Otherwise there is one segment for each
piece, and the segments one behind the other begin the text, so that none of it is lost or comes
twice. Of the text that is left before a piece, a literal cuts off as many characters as it has, a
field of fixed width its width, as far as there are so many; a field of open width cuts off all in
front of its delimiter, or everything if that does not come, and then all later segments are
empty. -/
theorem segments_exact (format : Format) (text : String) :
    ((∃ cause, format.segments text = .error cause) ↔
        ∃ piece ∈ format.pieces, ¬piece.IsSized) ∧
      (∀ cause, format.segments text = .error cause ↔ FirstMalformed format.pieces cause) ∧
      ∀ segments, format.segments text = .ok segments →
        segments.length = format.pieces.length ∧ segments.flatten <+: text.toList ∧
          ∀ before piece behind, format.pieces = before ++ piece :: behind →
            ∃ earlier segment later, segments = earlier ++ segment :: later ∧
              earlier.length = before.length ∧
              piece.Cuts (text.toList.drop earlier.flatten.length) segment ∧
              (piece.Exhausts (text.toList.drop earlier.flatten.length) →
                ∀ other ∈ later, other = []) := by
  refine ⟨?_, fun cause => segmentsFrom_eq_error_iff, fun segments cut => ?_⟩
  · rw [Outcome.eq_error_iff, segments, exists_segmentsFrom_iff]
    simp only [not_forall, exists_prop]
  · refine ⟨length_of_segmentsFrom cut, isPrefix_of_segmentsFrom cut, ?_⟩
    intro before piece behind split
    rw [Format.segments, split] at cut
    exact exists_cuts_of_segmentsFrom cut

/-- A delimiter that does not come, behind a letter that is longer than a byte. -/
theorem segments_exact_exhausted :
    let format := compile "é{M}h{S2}"
    let field := Piece.field "M" (some 'h')
    format.segments "é1ü" = .ok [['é'], ['1', 'ü'], [], []] ∧
      format.pieces = [.literal "é"] ++ field :: [.literal "h", .field "S2" none] ∧
      field.Cuts ("é1ü".toList.drop ['é'].length) ['1', 'ü'] ∧
      field.Exhausts ("é1ü".toList.drop ['é'].length) := by
  intro format field
  have cut : format.segments "é1ü" = .ok [['é'], ['1', 'ü'], [], []] := rfl
  have pieces : format.pieces = [.literal "é"] ++ field :: [.literal "h", .field "S2" none] := rfl
  obtain ⟨-, -, each⟩ := segments_exact format "é1ü"
  obtain ⟨earlier, segment, later, split, length, cuts, -⟩ := (each _ cut).2.2 _ _ _ pieces
  obtain ⟨only, rfl⟩ := List.length_eq_one_iff.mp length
  cases split
  refine ⟨cut, pieces, cuts, rfl, ?_⟩
  rintro _ ⟨⟩
  decide

end Format

end Duration

end XmlRecords
