import Mathlib.Data.List.Pairwise
import XmlRecords.Duration.Reading
import XmlRecords.Proofs.Duration.Units

/-! # When a text is read by a format

A format reads a text exactly if each of its fields names a unit, no two of them the same one, and
each segment has the form that its piece asks for. What is read has then the units that the format
names, each with the number that its own segment denotes (`Duration.Format.read_eq_ok_iff`). The
segments are merged from left to right; what has been merged so far has the units of the pieces
behind it and no others.
-/

namespace XmlRecords

namespace Duration

namespace Piece

/-- The piece is a field for a unit: the letter of the unit, and behind it a width, which may be
missing and has to fit 64 bits. -/
def Names : Piece → TimeUnit → Prop
  | literal _, _ => False
  | field spec _, unit =>
      ∃ width, spec.toList = unit.letter :: width ∧ Numeral.isDigits width ∧
        Numeral.value width < UInt64.size

instance Names.decidable : (piece : Piece) → (unit : TimeUnit) → Decidable (piece.Names unit)
  | literal _, _ => .isFalse id
  | field spec _, unit =>
      decidable_of_iff (spec.toList = unit.letter :: spec.toList.tail ∧
          Numeral.isDigits spec.toList.tail ∧ Numeral.value spec.toList.tail < UInt64.size) <| by
        constructor
        · exact fun holds => ⟨spec.toList.tail, holds⟩
        · rintro ⟨width, written, holds⟩
          rw [written]
          exact ⟨rfl, holds⟩

def IsSound (piece : Piece) : Prop :=
  piece.isField → ∃ unit, piece.Names unit

def Apart (first second : Piece) : Prop :=
  ∀ unit, first.Names unit → ¬second.Names unit

instance IsSound.decidable (piece : Piece) : Decidable piece.IsSound :=
  inferInstanceAs (Decidable (piece.isField → ∃ unit, piece.Names unit))

instance Apart.decidable (first second : Piece) : Decidable (first.Apart second) :=
  inferInstanceAs (Decidable (∀ unit, first.Names unit → ¬second.Names unit))

/-- The segment has the form that the piece asks for: the text of a literal, or digits for a field,
which may be missing and denote a number that fits 64 bits. -/
def Accepts : Piece → List Char → Prop
  | literal expected, segment => String.ofList segment = expected
  | field _ _, segment => Numeral.isDigits segment ∧ Numeral.value segment < UInt64.size

instance Accepts.decidable : (piece : Piece) → (segment : List Char) →
    Decidable (piece.Accepts segment)
  | literal expected, segment => inferInstanceAs (Decidable (String.ofList segment = expected))
  | field _ _, segment =>
      inferInstanceAs (Decidable (Numeral.isDigits segment ∧ Numeral.value segment < UInt64.size))

/-- The first character of a field names its unit. -/
theorem fieldUnit_eq_ok_iff {spec : String} {unit : TimeUnit} :
    fieldUnit spec = .ok unit ↔ ∃ width, spec.toList = unit.letter :: width := by
  unfold fieldUnit
  cases spec.toList with
  | nil => simp only [reduceCtorEq, exists_false]
  | cons letter width =>
      simp only [List.cons.injEq, exists_and_left, exists_eq', and_true,
        ← TimeUnit.ofLetter?_eq_some_iff]
      cases TimeUnit.ofLetter? letter <;> simp

/-- The width of a field as it is written, behind the letter of the unit. -/
def writtenWidth : Piece → List Char
  | literal _ => []
  | field spec _ => spec.toList.drop 1

/-- The number of characters that a field asks for. Without digits it is zero, and zero leaves it
open. -/
def width (piece : Piece) : Nat :=
  Numeral.value piece.writtenWidth

/-- The width is written as a number that fits 64 bits, or not at all. -/
def IsSized (piece : Piece) : Prop :=
  Numeral.isDigits piece.writtenWidth ∧ piece.width < UInt64.size

instance IsSized.decidable (piece : Piece) : Decidable piece.IsSized :=
  inferInstanceAs (Decidable (Numeral.isDigits piece.writtenWidth ∧ piece.width < UInt64.size))

section Width

variable {spec : String} {delimiter : Option Char}

/-- The width is what is written behind the unit, where zero and nothing mean that it is open. -/
theorem fieldWidth_of_isSized (sized : (field spec delimiter).IsSized) :
    fieldWidth spec = .ok (if (field spec delimiter).width = 0 then none
      else some (field spec delimiter).width) := by
  obtain ⟨digits, bound⟩ := sized
  rw [writtenWidth] at digits
  rw [width, writtenWidth] at bound ⊢
  have proper : ¬(!Numeral.isDigits (spec.toList.drop 1) ||
      decide (Numeral.value (spec.toList.drop 1) ≥ UInt64.size)) = true := by
    rw [digits, Bool.not_true, Bool.false_or, decide_eq_true_eq, Nat.not_le]
    exact bound
  rw [fieldWidth, if_neg proper]
  split <;> rfl

/-- If it is no such number, the error tells what is written there. -/
theorem fieldWidth_of_not_isSized (malformed : ¬(field spec delimiter).IsSized) :
    fieldWidth spec =
      .error (.malformedWidth (String.ofList (field spec delimiter).writtenWidth)) := by
  rw [fieldWidth, if_pos]
  · rfl
  · rw [Bool.or_eq_true, Bool.not_eq_true', decide_eq_true_eq, ← Bool.not_eq_true, ge_iff_le,
      ← Nat.not_lt]
    exact not_and_or.mp malformed

theorem exists_fieldWidth_iff (delimiter : Option Char) :
    (∃ width, fieldWidth spec = .ok width) ↔ (field spec delimiter).IsSized := by
  by_cases sized : (field spec delimiter).IsSized
  · simp only [fieldWidth_of_isSized sized, Except.ok.injEq, exists_eq', sized]
  · simp only [fieldWidth_of_not_isSized sized, reduceCtorEq, exists_false, sized]

end Width

theorem isSized_literal (expected : String) : (literal expected).IsSized :=
  ⟨rfl, Nat.two_pow_pos 64⟩

section Field

variable {spec : String} {delimiter : Option Char} {left : List Char}

theorem cut_of_malformed {cause : DurationError} (malformed : fieldWidth spec = .error cause) :
    (field spec delimiter).cut left = .error cause := by
  rw [cut, malformed]
  rfl

/-- A fixed width takes as many characters, or what is left. -/
theorem cut_of_fixed {width : Nat} (fixed : fieldWidth spec = .ok (some width)) :
    (field spec delimiter).cut left = .ok (left.take width, left.drop width) := by
  rw [cut, fixed, ← List.splitAt_eq]
  rfl

/-- An open field takes all up to its delimiter, or all that is left. -/
theorem cut_of_open (isOpen : fieldWidth spec = .ok none) :
    (field spec delimiter).cut left =
      .ok (delimiter.elim (left, []) fun stop => left.span (· != stop)) := by
  rw [cut, isOpen]
  cases delimiter <;> rfl

end Field

/-- Only a field whose width is no number cuts nothing, whatever the text is. -/
theorem cut_eq_error_iff {piece : Piece} {left : List Char} {cause : DurationError} :
    piece.cut left = .error cause ↔
      ¬piece.IsSized ∧ cause = .malformedWidth (String.ofList piece.writtenWidth) := by
  cases piece with
  | literal expected => simp only [cut, reduceCtorEq, isSized_literal, not_true, false_and]
  | field spec delimiter =>
      by_cases sized : (field spec delimiter).IsSized
      · refine iff_of_false (fun failed => ?_) fun both => both.1 sized
        have width := fieldWidth_of_isSized sized
        by_cases isOpen : (field spec delimiter).width = 0
        · rw [if_pos isOpen] at width
          cases failed.symm.trans (cut_of_open width)
        · rw [if_neg isOpen] at width
          cases failed.symm.trans (cut_of_fixed width)
      · rw [cut_of_malformed (fieldWidth_of_not_isSized sized), Except.error.injEq, eq_comm]
        exact (and_iff_right sized).symm

/-- A piece can be cut off just if its width is a number. -/
theorem exists_cut_iff {piece : Piece} {left : List Char} :
    (∃ parts, piece.cut left = .ok parts) ↔ piece.IsSized := by
  rw [← not_iff_not, ← Outcome.eq_error_iff]
  simp only [cut_eq_error_iff, exists_and_left, exists_eq, and_true]

theorem names_field_iff {spec : String} {delimiter : Option Char} {unit : TimeUnit} :
    (field spec delimiter).Names unit ↔
      fieldUnit spec = .ok unit ∧ ∃ width, fieldWidth spec = .ok width := by
  rw [fieldUnit_eq_ok_iff, exists_fieldWidth_iff delimiter, Names, IsSized, width, writtenWidth]
  constructor
  · rintro ⟨width, written, digits, bound⟩
    rw [written]
    exact ⟨⟨width, rfl⟩, digits, bound⟩
  · rintro ⟨⟨width, written⟩, digits, bound⟩
    rw [written] at digits bound
    exact ⟨width, written, digits, bound⟩

/-- A piece names one unit at most. -/
theorem Names.unique {piece : Piece} {unit other : TimeUnit} (names : piece.Names unit)
    (again : piece.Names other) : unit = other := by
  cases piece with
  | literal _ => exact names.elim
  | field spec delimiter =>
      have first := (names_field_iff.mp names).1
      have second := (names_field_iff.mp again).1
      exact Except.ok.inj (first.symm.trans second)

theorem IsSound.isSized {piece : Piece} (sound : piece.IsSound) : piece.IsSized := by
  cases piece with
  | literal expected => exact isSized_literal expected
  | field spec delimiter =>
      obtain ⟨unit, names⟩ := sound rfl
      exact (exists_fieldWidth_iff delimiter).mp (names_field_iff.mp names).2

/-- A field is read from digits only, as a number below `2 ^ 64` of its unit. -/
theorem read_field_eq_ok_iff {spec : String} {delimiter : Option Char} {segment : List Char}
    {duration : Duration} :
    (field spec delimiter).read segment = .ok duration ↔
      ∃ unit, (field spec delimiter).Names unit ∧
        (Numeral.isDigits segment ∧ Numeral.value segment < UInt64.size) ∧
        duration = single unit (UInt64.ofNat (Numeral.value segment)) := by
  simp only [read, Outcome.bind_eq_ok, names_field_iff, Numeral.value64?]
  constructor
  · rintro ⟨unit, named, width, fixed, numeral⟩
    by_cases digits : Numeral.isDigits segment
    · by_cases bound : Numeral.value segment < UInt64.size
      · simp only [digits, bound, ↓reduceIte, Except.ok.injEq] at numeral
        exact ⟨unit, ⟨named, width, fixed⟩, ⟨digits, bound⟩, numeral.symm⟩
      · simp only [digits, bound, ↓reduceIte, reduceCtorEq] at numeral
    · simp only [digits, Bool.false_eq_true, ↓reduceIte, reduceCtorEq] at numeral
  · rintro ⟨unit, ⟨named, width, fixed⟩, ⟨digits, bound⟩, rfl⟩
    exact ⟨unit, named, width, fixed, by simp only [digits, bound, ↓reduceIte]⟩

/-- A literal is read from itself, and sets no unit. -/
theorem read_literal_eq_ok_iff {expected : String} {segment : List Char} {duration : Duration} :
    (literal expected).read segment = .ok duration ↔
      String.ofList segment = expected ∧ duration = unset := by
  rw [read]
  by_cases met : String.ofList segment = expected
  · simp only [met, ↓reduceIte, Except.ok.injEq, true_and, eq_comm]
  · simp only [met, ↓reduceIte, reduceCtorEq, false_and]

/-- A sound piece reads the segments that it accepts, and these only. -/
theorem exists_read_iff {piece : Piece} {segment : List Char} :
    (∃ duration, piece.read segment = .ok duration) ↔ piece.IsSound ∧ piece.Accepts segment := by
  cases piece with
  | literal expected =>
      simp only [read_literal_eq_ok_iff, exists_and_left, exists_eq, and_true, IsSound, isField,
        Bool.false_eq_true, false_implies, true_and, Accepts]
  | field spec delimiter =>
      simp only [read_field_eq_ok_iff, IsSound, isField, true_implies, Accepts]
      constructor
      · rintro ⟨_, unit, names, accepts, _⟩
        exact ⟨⟨unit, names⟩, accepts⟩
      · rintro ⟨⟨unit, names⟩, accepts⟩
        exact ⟨_, unit, names, accepts, rfl⟩

/-- What a piece reads has the unit that it names, with the number of the segment, and no other. -/
theorem get?_of_read {piece : Piece} {segment : List Char} {duration : Duration}
    (read : piece.read segment = .ok duration) {unit : TimeUnit} {magnitude : UInt64} :
    duration.get? unit = some magnitude ↔
      piece.Names unit ∧ magnitude.toNat = Numeral.value segment := by
  cases piece with
  | literal expected =>
      obtain ⟨_, rfl⟩ := read_literal_eq_ok_iff.mp read
      simp only [get?_unset, reduceCtorEq, Names, false_and]
  | field spec delimiter =>
      obtain ⟨named, names, ⟨_, bound⟩, rfl⟩ := read_field_eq_ok_iff.mp read
      rw [get?_single_eq_some_iff bound]
      refine and_congr_left fun _ => ⟨?_, fun again => again.unique names⟩
      rintro rfl
      exact names

/-- What a piece reads shares no unit with a duration that has not set the unit it names. -/
theorem apart_of_read {piece : Piece} {segment : List Char} {start duration : Duration}
    (read : piece.read segment = .ok duration)
    (free : ∀ unit, piece.Names unit → start.get? unit = none) (unit : TimeUnit) :
    start.get? unit = none ∨ duration.get? unit = none := by
  cases set : duration.get? unit with
  | none => exact .inr rfl
  | some magnitude => exact .inl (free unit ((get?_of_read read).mp set).1)

theorem Names.exists_magnitude {piece : Piece} {segment : List Char} {unit : TimeUnit}
    (names : piece.Names unit) (accepts : piece.Accepts segment) :
    ∃ magnitude : UInt64, magnitude.toNat = Numeral.value segment := by
  cases piece with
  | literal _ => exact names.elim
  | field spec delimiter =>
      exact ⟨UInt64.ofNat (Numeral.value segment), UInt64.toNat_ofNat_of_lt' accepts.2⟩

end Piece

namespace Format

/-- A segment is merged if its piece is sound and accepts it, and names no unit that is set
already. It adds the unit that the piece names, with the number of the segment. -/
theorem mergeSegment_eq_ok_iff {start merged : Duration} {pair : Piece × List Char} :
    mergeSegment start pair = .ok merged ↔
      (pair.1.IsSound ∧ pair.1.Accepts pair.2) ∧
        (∀ unit, pair.1.Names unit → start.get? unit = none) ∧
        ∀ unit magnitude, merged.get? unit = some magnitude ↔
          start.get? unit = some magnitude ∨
            (pair.1.Names unit ∧ magnitude.toNat = Numeral.value pair.2) := by
  simp only [mergeSegment, Outcome.bind_eq_ok, merge_eq_ok_iff]
  constructor
  · rintro ⟨part, read, apart, each⟩
    obtain ⟨sound, accepts⟩ := Piece.exists_read_iff.mp ⟨part, read⟩
    refine ⟨⟨sound, accepts⟩, fun unit names => ?_, fun unit magnitude => ?_⟩
    · obtain ⟨magnitude, number⟩ := names.exists_magnitude accepts
      have set := (Piece.get?_of_read read).mpr ⟨names, number⟩
      refine (apart unit).resolve_right fun none => ?_
      cases none.symm.trans set
    · rw [each unit, Option.or_eq_some_iff, ← Piece.get?_of_read read]
      refine or_congr_right ⟨And.right, fun set => ⟨?_, set⟩⟩
      refine (apart unit).resolve_right fun none => ?_
      cases none.symm.trans set
  · rintro ⟨proper, free, each⟩
    obtain ⟨part, read⟩ := Piece.exists_read_iff.mpr proper
    refine ⟨part, read, Piece.apart_of_read read free, fun unit => Option.ext fun magnitude => ?_⟩
    rw [each unit magnitude, Option.or_eq_some_iff, ← Piece.get?_of_read read]
    refine or_congr_right ⟨fun set => ⟨?_, set⟩, And.right⟩
    exact free unit ((Piece.get?_of_read read).mp set).1

/-- A segment can be merged if its unit is free. -/
theorem exists_mergeSegment {start : Duration} {pair : Piece × List Char}
    (proper : pair.1.IsSound ∧ pair.1.Accepts pair.2)
    (free : ∀ unit, pair.1.Names unit → start.get? unit = none) :
    ∃ merged, mergeSegment start pair = .ok merged := by
  obtain ⟨part, read⟩ := Piece.exists_read_iff.mpr proper
  obtain ⟨merged, both⟩ := exists_merge (Piece.apart_of_read read free)
  exact ⟨merged, Outcome.bind_eq_ok.mpr ⟨part, read, both⟩⟩

/-- A unit that is not set, and that the piece does not name, is not set behind its segment. -/
theorem unset_of_mergeSegment {start merged : Duration} {pair : Piece × List Char}
    (both : mergeSegment start pair = .ok merged) {unit : TimeUnit}
    (free : start.get? unit = none) (unnamed : ¬pair.1.Names unit) : merged.get? unit = none := by
  obtain ⟨-, -, each⟩ := mergeSegment_eq_ok_iff.mp both
  refine Option.eq_none_iff_forall_ne_some.mpr fun magnitude set => ?_
  rcases (each unit magnitude).mp set with before | ⟨named, -⟩
  · cases free.symm.trans before
  · exact unnamed named

/-- Segments are merged one behind the other if each piece is sound and accepts its segment, no two
of the pieces name the same unit, and none names one that is set at the start. What is set at the
end was set at the start, or is the number of the segment of a piece that names it. -/
theorem foldlM_mergeSegment_eq_ok_iff {pairs : List (Piece × List Char)}
    {start duration : Duration} :
    pairs.foldlM mergeSegment start = .ok duration ↔
      (∀ pair ∈ pairs, pair.1.IsSound ∧ pair.1.Accepts pair.2) ∧
        (pairs.Pairwise fun first second => first.1.Apart second.1) ∧
        (∀ pair ∈ pairs, ∀ unit, pair.1.Names unit → start.get? unit = none) ∧
        ∀ unit magnitude, duration.get? unit = some magnitude ↔
          start.get? unit = some magnitude ∨
            ∃ pair ∈ pairs, pair.1.Names unit ∧ magnitude.toNat = Numeral.value pair.2 := by
  induction pairs generalizing start with
  | nil =>
      simp only [List.foldlM_nil, Outcome.pure_eq_ok, List.not_mem_nil, false_implies,
        implies_true, List.Pairwise.nil, true_and, false_and, exists_false, or_false]
      constructor
      · rintro rfl unit magnitude
        exact Iff.rfl
      · exact fun same => ext_some fun unit magnitude => (same unit magnitude).symm
  | cons pair pairs ih =>
      simp only [List.foldlM_cons, Outcome.bind_eq_ok, ih, List.forall_mem_cons,
        List.pairwise_cons]
      simp only [List.mem_cons, or_and_right, exists_or, exists_eq_left]
      constructor
      · rintro ⟨middle, merged, proper, distinct, free, final⟩
        obtain ⟨here, unset, each⟩ := mergeSegment_eq_ok_iff.mp merged
        refine ⟨⟨here, proper⟩, ⟨fun other member unit names again => ?_, distinct⟩,
          ⟨unset, fun other member unit names => ?_⟩, fun unit magnitude => ?_⟩
        · obtain ⟨magnitude, number⟩ := names.exists_magnitude here.2
          have set := (each unit magnitude).mpr (.inr ⟨names, number⟩)
          cases (free other member unit again).symm.trans set
        · refine Option.eq_none_iff_forall_ne_some.mpr fun magnitude set => ?_
          have kept := (each unit magnitude).mpr (.inl set)
          cases (free other member unit names).symm.trans kept
        · rw [final unit magnitude, each unit magnitude, or_assoc]
      · rintro ⟨⟨here, proper⟩, ⟨apart, distinct⟩, ⟨unset, free⟩, final⟩
        obtain ⟨middle, merged⟩ := exists_mergeSegment here unset
        obtain ⟨-, -, each⟩ := mergeSegment_eq_ok_iff.mp merged
        refine ⟨middle, merged, proper, distinct, fun other member unit names => ?_,
          fun unit magnitude => ?_⟩
        · exact unset_of_mergeSegment merged (free other member unit names)
            fun named => apart other member unit named names
        · rw [final unit magnitude, each unit magnitude, or_assoc]

/-- Segments of different units can be merged one after the other. The induction is along them, with
the units that are still free. -/
theorem exists_foldlM_mergeSegment {pairs : List (Piece × List Char)}
    (proper : ∀ pair ∈ pairs, pair.1.IsSound ∧ pair.1.Accepts pair.2)
    (distinct : pairs.Pairwise fun first second => first.1.Apart second.1) (start : Duration)
    (free : ∀ pair ∈ pairs, ∀ unit, pair.1.Names unit → start.get? unit = none) :
    ∃ duration, pairs.foldlM mergeSegment start = .ok duration := by
  induction pairs generalizing start with
  | nil => exact ⟨start, rfl⟩
  | cons pair pairs ih =>
      obtain ⟨here, proper⟩ := List.forall_mem_cons.mp proper
      obtain ⟨unset, free⟩ := List.forall_mem_cons.mp free
      obtain ⟨apart, distinct⟩ := List.pairwise_cons.mp distinct
      obtain ⟨middle, merged⟩ := exists_mergeSegment here unset
      obtain ⟨duration, folded⟩ := ih proper distinct middle fun other member unit names =>
        unset_of_mergeSegment merged (free other member unit names)
          fun named => apart other member unit named names
      exact ⟨duration, Outcome.bind_eq_ok.mpr ⟨middle, merged, folded⟩⟩

/-- A text is cut into segments if the widths of all fields are numbers. -/
theorem exists_segmentsFrom_iff {pieces : List Piece} {left : List Char} :
    (∃ segments, segmentsFrom pieces left = .ok segments) ↔ ∀ piece ∈ pieces, piece.IsSized := by
  induction pieces generalizing left with
  | nil => exact ⟨fun _ => nofun, fun _ => ⟨[], rfl⟩⟩
  | cons piece pieces ih =>
      simp only [segmentsFrom, Outcome.bind_eq_ok, Except.ok.injEq, List.forall_mem_cons]
      constructor
      · rintro ⟨_, parts, cut, others, behind, _⟩
        exact ⟨Piece.exists_cut_iff.mp ⟨parts, cut⟩, ih.mp ⟨others, behind⟩⟩
      · rintro ⟨here, sized⟩
        obtain ⟨parts, cut⟩ : ∃ parts, piece.cut left = .ok parts :=
          Piece.exists_cut_iff.mpr here
        obtain ⟨others, behind⟩ := ih.mpr sized
        exact ⟨_, parts, cut, others, behind, rfl⟩

/-- Each piece cuts off one segment. -/
theorem length_of_segmentsFrom {pieces : List Piece} {text : List Char}
    {segments : List (List Char)} (cut : segmentsFrom pieces text = .ok segments) :
    segments.length = pieces.length := by
  induction pieces generalizing text segments with
  | nil =>
      cases cut
      rfl
  | cons piece pieces ih =>
      simp only [segmentsFrom, Outcome.bind_eq_ok, Except.ok.injEq] at cut
      obtain ⟨⟨segment, rest⟩, -, others, behind, rfl⟩ := cut
      exact congrArg (· + 1) (ih behind)

/-- A format of sound pieces cuts each text into one segment for each piece. -/
theorem exists_segmentsFrom {pieces : List Piece} (sound : ∀ piece ∈ pieces, piece.IsSound)
    (text : List Char) :
    ∃ segments, segmentsFrom pieces text = .ok segments ∧ segments.length = pieces.length := by
  obtain ⟨segments, cut⟩ :=
    exists_segmentsFrom_iff.mpr fun piece member => (sound piece member).isSized
  exact ⟨segments, cut, length_of_segmentsFrom cut⟩

/-- A text is read by a format exactly if each field of the format names a unit, no two of them the
same one, and each of the segments that the format cuts the text into has the form that its piece
asks for. The duration has the units that the format names, each with the number that the digits of
its own segment denote, and no others. A format whose fields all name units cuts every text. -/
theorem read_eq_ok_iff (format : Format) (text : String) (duration : Duration) :
    (format.read text = .ok duration ↔
      (∀ piece ∈ format.pieces, piece.IsSound) ∧
        format.pieces.Pairwise Piece.Apart ∧
        ∃ segments, format.segments text = .ok segments ∧
          (∀ pair ∈ format.pieces.zip segments, pair.1.Accepts pair.2) ∧
          ∀ unit magnitude, duration.get? unit = some magnitude ↔
            ∃ pair ∈ format.pieces.zip segments,
              pair.1.Names unit ∧ magnitude.toNat = Numeral.value pair.2) ∧
      ((∀ piece ∈ format.pieces, piece.IsSound) →
        ∃ segments, format.segments text = .ok segments ∧
          segments.length = format.pieces.length) := by
  refine ⟨?_, fun sound => exists_segmentsFrom sound text.toList⟩
  have by_piece : ∀ segments : List (List Char), segments.length = format.pieces.length →
      (format.pieces.zip segments).map Prod.fst = format.pieces :=
    fun segments length => List.map_fst_zip (Nat.le_of_eq length.symm)
  simp only [read, Outcome.bind_eq_ok, foldlM_mergeSegment_eq_ok_iff, get?_unset, reduceCtorEq,
    false_or, implies_true, true_and]
  constructor
  · rintro ⟨segments, cut, proper, distinct, final⟩
    have pieces := by_piece segments (length_of_segmentsFrom cut)
    rw [← List.pairwise_map, pieces] at distinct
    refine ⟨fun piece member => ?_, distinct, segments, cut,
      fun pair member => (proper pair member).2, final⟩
    rw [← pieces] at member
    obtain ⟨pair, paired, rfl⟩ := List.mem_map.mp member
    exact (proper pair paired).1
  · rintro ⟨sound, distinct, segments, cut, accepts, final⟩
    have pieces := by_piece segments (length_of_segmentsFrom cut)
    refine ⟨segments, cut, fun pair member => ⟨sound pair.1 ?_, accepts pair member⟩, ?_, final⟩
    · rw [← pieces]
      exact List.mem_map_of_mem member
    · rw [← pieces, List.pairwise_map] at distinct
      exact distinct

/-- A field of fixed width and one up to its delimiter, with literals around them. -/
theorem read_eq_ok_iff_clock :
    let format := compile "h{H2}:{M};"
    format.read "h12:34;" = .ok ⟨none, some 12, some 34, none⟩ ∧
      (∀ piece ∈ format.pieces, piece.IsSound) ∧ format.pieces.Pairwise Piece.Apart ∧
      ∃ segments, format.segments "h12:34;" = .ok segments ∧ segments.length = 5 := by
  intro format
  have read : format.read "h12:34;" = .ok ⟨none, some 12, some 34, none⟩ := rfl
  obtain ⟨exactly, cuts⟩ := read_eq_ok_iff format "h12:34;" ⟨none, some 12, some 34, none⟩
  obtain ⟨sound, apart, _⟩ := exactly.mp read
  exact ⟨read, sound, apart, cuts sound⟩

end Format

end Duration

end XmlRecords
