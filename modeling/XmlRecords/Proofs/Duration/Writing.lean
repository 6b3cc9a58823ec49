import Mathlib.Data.List.Forall2
import XmlRecords.Proofs.Duration.Compiling
import XmlRecords.Proofs.Duration.Reading
import XmlRecords.Proofs.Text.Reading

/-! # Reading back what a format writes

A format and one row of digits for each of its fields make a text: literals are written as they are
and fields as their digits. Reading the text by the format gives the digits back
(`Duration.Format.read_written`). What has to be shown is that each cut falls on the boundary that
was written. A delimiter is searched in all of the text that is left, but the digits of its field do
not contain it, and the literal behind them begins with it.
-/

namespace XmlRecords

namespace Duration

namespace Piece

/-- The width that a field fixes. -/
def fixedWidth? : Piece → Option Nat
  | literal _ => none
  | field spec _ => (fieldWidth spec).toOption.join

/-- The piece is a field whose width is left open. -/
def IsOpen : Piece → Prop
  | literal _ => False
  | field spec _ => fieldWidth spec = .ok none

/-- The digits can be written for the field: their number fits 64 bits, and there are as many of
them as the width that the field fixes. -/
def Fits (piece : Piece) (row : List Char) : Prop :=
  piece.Accepts row ∧ ∀ width ∈ piece.fixedWidth?, row.length = width

theorem cut_literal (expected : String) (rest : List Char) :
    (literal expected).cut (expected.toList ++ rest) = .ok (expected.toList, rest) := by
  rw [cut, List.splitAt_eq, List.take_left, List.drop_left]

theorem cut_fixed {spec : String} {delimiter : Option Char} {row : List Char} {width : Nat}
    (fixed : fieldWidth spec = .ok (some width)) (length : row.length = width)
    (rest : List Char) : (field spec delimiter).cut (row ++ rest) = .ok (row, rest) := by
  subst length
  rw [cut_of_fixed fixed, List.take_left, List.drop_left]

theorem cut_delimited {spec : String} {delimiter : Char} {row rest : List Char}
    (isOpen : fieldWidth spec = .ok none) (apart : ∀ char ∈ row, char ≠ delimiter) :
    (field spec (some delimiter)).cut (row ++ delimiter :: rest) =
      .ok (row, delimiter :: rest) := by
  have ends : (row ++ delimiter :: rest).span (· != delimiter) = (row, delimiter :: rest) :=
    span_append (fun char member => bne_iff_ne.mpr (apart char member))
      (forall_mem_head?_cons (bne_self_eq_false delimiter))
  rw [cut_of_open isOpen, Option.elim_some, ends]

theorem cut_last {spec : String} {row : List Char} (isOpen : fieldWidth spec = .ok none) :
    (field spec none).cut row = .ok (row, []) := by
  rw [cut_of_open isOpen, Option.elim_none]

end Piece

namespace Format

/-- The segments of a format with these rows of digits: for a literal its own text, and for a field
the next row. -/
def filled : List Piece → List (List Char) → List (List Char)
  | [], _ => []
  | .literal text :: pieces, rows => text.toList :: filled pieces rows
  | .field _ _ :: pieces, rows => rows.headD [] :: filled pieces rows.tail

/-- The fields of a format, in order. -/
def fields (format : Format) : List Piece :=
  format.pieces.filter Piece.isField

/-- The text that a format writes with a row of digits for each of its fields. -/
def written (format : Format) (rows : List (List Char)) : String :=
  String.ofList (filled format.pieces rows).flatten

/-- Each field of open width ends with a delimiter that is not a digit, or it is the last piece. -/
def AreSeparated : List Piece → Prop
  | [] => True
  | piece :: pieces =>
      (piece.IsOpen → pieces = [] ∨ ∃ delimiter ∈ piece.delimiter?, delimiter.isDigit = false) ∧
        AreSeparated pieces

/-- The last piece is no field of open width, which would take what comes behind it too. -/
def IsClosed (pieces : List Piece) : Prop :=
  ∀ piece ∈ pieces.getLast?, ¬piece.IsOpen

theorem IsClosed.tail {piece : Piece} {pieces : List Piece}
    (closed : IsClosed (piece :: pieces)) : IsClosed pieces := by
  cases pieces with
  | nil => exact nofun
  | cons other pieces => exact closed

/-- A field takes exactly its own digits off the text that is written from it on. -/
theorem cut_filled {spec : String} {delimiter : Option Char} {pieces : List Piece}
    {row : List Char} {rows : List (List Char)} {more : List Char}
    (delimited : AreDelimited (.field spec delimiter :: pieces))
    (sound : (Piece.field spec delimiter).IsSound)
    (separated : AreSeparated (.field spec delimiter :: pieces))
    (fits : (Piece.field spec delimiter).Fits row)
    (ends : more = [] ∨ IsClosed (.field spec delimiter :: pieces)) :
    (Piece.field spec delimiter).cut (row ++ ((filled pieces rows).flatten ++ more)) =
      .ok (row, (filled pieces rows).flatten ++ more) := by
  obtain ⟨unit, names⟩ := sound rfl
  obtain ⟨width, fixed⟩ := (Piece.names_field_iff.mp names).2
  cases width with
  | some width => exact Piece.cut_fixed fixed (fits.2 width (congrArg (·.toOption.join) fixed)) _
  | none =>
      rcases separated.1 fixed with rfl | ⟨stop, ⟨⟩, other⟩
      · -- The last piece: what would come behind it belongs to it.
        have nothing : more = [] := ends.resolve_right fun closed => closed _ rfl fixed
        cases delimiter with
        | some stop =>
            obtain ⟨text, others, missing⟩ := delimited.1 stop rfl
            cases missing
        | none =>
            rw [nothing, filled, List.flatten_nil, List.append_nil, List.append_nil]
            exact Piece.cut_last fixed
      · obtain ⟨text, others, rfl⟩ := delimited.1 stop rfl
        rw [filled, List.flatten_cons, String.toList_ofList, List.cons_append, List.cons_append]
        refine Piece.cut_delimited fixed fun char member same => ?_
        subst same
        have digit := List.all_eq_true.mp fits.1.1 char member
        cases other.symm.trans digit

/-- Each cut falls on the boundary that was written. -/
theorem segmentsFrom_filled {pieces : List Piece} {rows : List (List Char)} {more : List Char}
    (delimited : AreDelimited pieces) (sound : ∀ piece ∈ pieces, piece.IsSound)
    (separated : AreSeparated pieces)
    (fits : List.Forall₂ Piece.Fits (pieces.filter Piece.isField) rows)
    (ends : more = [] ∨ IsClosed pieces) :
    segmentsFrom pieces ((filled pieces rows).flatten ++ more) = .ok (filled pieces rows) := by
  induction pieces generalizing rows with
  | nil => rfl
  | cons piece pieces ih =>
      obtain ⟨here, soundBehind⟩ := List.forall_mem_cons.mp sound
      have behind {rows : List (List Char)}
          (fits : List.Forall₂ Piece.Fits (pieces.filter Piece.isField) rows) :
          segmentsFrom pieces ((filled pieces rows).flatten ++ more) =
            .ok (filled pieces rows) :=
        ih delimited.2 soundBehind separated.2 fits (ends.imp_right IsClosed.tail)
      simp only [segmentsFrom, Outcome.bind_eq_ok, Except.ok.injEq]
      cases piece with
      | literal text =>
          rw [List.filter_cons_of_neg Bool.false_ne_true] at fits
          refine ⟨(text.toList, (filled pieces rows).flatten ++ more), ?_, _, behind fits, rfl⟩
          rw [filled, List.flatten_cons, List.append_assoc]
          exact Piece.cut_literal text _
      | field spec delimiter =>
          rw [List.filter_cons_of_pos rfl] at fits
          cases fits with
          | @cons _ row _ rows fit fits =>
              refine ⟨(row, (filled pieces rows).flatten ++ more), ?_, _, behind fits, rfl⟩
              rw [filled, List.headD_cons, List.tail_cons, List.flatten_cons, List.append_assoc]
              exact cut_filled delimited here separated fit ends

/-- The segments of a format belong to its literals and to its fields. -/
theorem mem_zip_filled {pieces : List Piece} {rows : List (List Char)}
    (length : rows.length = (pieces.filter Piece.isField).length) (pair : Piece × List Char) :
    pair ∈ pieces.zip (filled pieces rows) ↔
      (∃ text, .literal text ∈ pieces ∧ pair = (.literal text, text.toList)) ∨
        pair ∈ (pieces.filter Piece.isField).zip rows := by
  induction pieces generalizing rows with
  | nil => simp only [filled, List.zip_nil_left, List.not_mem_nil, List.filter_nil, false_and,
      exists_false, or_false]
  | cons piece pieces ih =>
      cases piece with
      | literal text =>
          rw [List.filter_cons_of_neg Bool.false_ne_true] at length ⊢
          simp only [filled, List.zip_cons_cons, List.mem_cons, ih length, Piece.literal.injEq,
            or_and_right, exists_or, exists_eq_left, or_assoc]
      | field spec delimiter =>
          rw [List.filter_cons_of_pos rfl] at length ⊢
          cases rows with
          | nil => cases length
          | cons row rows =>
              simp only [filled, List.headD_cons, List.tail_cons, List.zip_cons_cons,
                List.mem_cons, ih (Nat.succ.inj length), reduceCtorEq, false_or, or_left_comm]

/-- Segments that the pieces of a format accept are merged, if all fields name units and no two of
them the same one. -/
theorem exists_read_of_segments {format : Format} {segments : List (List Char)}
    (sound : ∀ piece ∈ format.pieces, piece.IsSound)
    (apart : format.pieces.Pairwise Piece.Apart)
    (length : segments.length = format.pieces.length)
    (accepts : ∀ pair ∈ format.pieces.zip segments, pair.1.Accepts pair.2) :
    ∃ duration, (∀ unit magnitude, duration.get? unit = some magnitude ↔
        ∃ pair ∈ format.pieces.zip segments,
          pair.1.Names unit ∧ magnitude.toNat = Numeral.value pair.2) ∧
      ∀ text, format.segments text = .ok segments → format.read text = .ok duration := by
  have pieces : (format.pieces.zip segments).map Prod.fst = format.pieces :=
    List.map_fst_zip (Nat.le_of_eq length.symm)
  rw [← pieces, List.pairwise_map] at apart
  obtain ⟨duration, folded⟩ := exists_foldlM_mergeSegment
    (fun pair member => ⟨sound pair.1 (pieces ▸ List.mem_map_of_mem member), accepts pair member⟩)
    apart unset (fun _ _ unit _ => get?_unset unit)
  refine ⟨duration, fun unit magnitude => ?_, fun text cut => ?_⟩
  · rw [(foldlM_mergeSegment_eq_ok_iff.mp folded).2.2.2, get?_unset]
    simp only [reduceCtorEq, false_or]
  · exact Outcome.bind_eq_ok.mpr ⟨segments, cut, folded⟩

/-- Reading undoes writing. The fields of a compiled format name different units, and those of open
width end with a delimiter that is not a digit, or with the format. Then the text that is written
with any digits that fit the fields is read as the duration in which these units are set, to the
numbers of these digits, and no others. Behind a last piece that is not of open width more text may
follow, and changes nothing. -/
theorem read_written (source : String) (rows : List (List Char))
    (sound : ∀ piece ∈ (compile source).pieces, piece.IsSound)
    (apart : (compile source).pieces.Pairwise Piece.Apart)
    (separated : AreSeparated (compile source).pieces)
    (fits : List.Forall₂ Piece.Fits (compile source).fields rows) :
    ∃ duration, (∀ unit magnitude, duration.get? unit = some magnitude ↔
        ∃ pair ∈ (compile source).fields.zip rows,
          pair.1.Names unit ∧ magnitude.toNat = Numeral.value pair.2) ∧
      (compile source).read ((compile source).written rows) = .ok duration ∧
      (IsClosed (compile source).pieces →
        ∀ more, (compile source).read ((compile source).written rows ++ more) = .ok duration) := by
  have delimited := areDelimited_compile source
  generalize compile source = format at *
  have paired := mem_zip_filled fits.length_eq.symm
  have cut {more : String} (ends : more.toList = [] ∨ IsClosed format.pieces) :
      format.segments (format.written rows ++ more) = .ok (filled format.pieces rows) := by
    rw [segments, written, String.toList_append, String.toList_ofList]
    exact segmentsFrom_filled delimited sound separated fits ends
  have accepts : ∀ pair ∈ format.pieces.zip (filled format.pieces rows),
      pair.1.Accepts pair.2 := by
    intro pair member
    rcases (paired pair).mp member with ⟨text, _, rfl⟩ | field
    · exact String.ofList_toList
    · exact (List.forall₂_iff_zip.mp fits).2 field |>.1
  obtain ⟨duration, final, read⟩ := exists_read_of_segments sound apart
    (length_of_segmentsFrom (cut (.inl String.toList_empty))) accepts
  refine ⟨duration, fun unit magnitude => ?_, ?_, fun closed more => read _ (cut (.inr closed))⟩
  · rw [final unit magnitude]
    constructor
    · rintro ⟨pair, member, names, number⟩
      rcases (paired pair).mp member with ⟨text, _, rfl⟩ | field
      · exact names.elim
      · exact ⟨pair, field, names, number⟩
    · rintro ⟨pair, field, names⟩
      exact ⟨pair, (paired pair).mpr (.inr field), names⟩
  · rw [← String.append_empty (s := format.written rows)]
    exact read _ (cut (.inl String.toList_empty))

/-- No digits for the days, and a delimiter that comes again in the literals behind it. -/
theorem read_written_days :
    let format := compile "{D}d {H2}:{M3}d"
    let rows := [[], ['0', '4'], ['0', '0', '5']]
    format.written rows = "d 04:005d" ∧
      ∀ more, format.read (format.written rows ++ more) = .ok ⟨some 0, some 4, some 5, none⟩ := by
  intro format rows
  have pieces : format.pieces = [.field "D" (some 'd'), .literal "d ", .field "H2" (some ':'),
    .literal ":", .field "M3" (some 'd'), .literal "d"] := rfl
  have sound : ∀ piece ∈ format.pieces, piece.IsSound := by
    rw [pieces]
    decide
  have apart : format.pieces.Pairwise Piece.Apart := by
    rw [pieces]
    decide
  have separated : AreSeparated format.pieces := by
    rw [pieces]
    exact ⟨fun _ => .inr ⟨'d', rfl, rfl⟩, nofun, nofun, nofun, nofun, nofun, trivial⟩
  have fits : List.Forall₂ Piece.Fits format.fields rows := by
    rw [fields, pieces]
    exact .cons ⟨by decide, nofun⟩ (.cons ⟨by decide, fun _ same => Option.some.inj same⟩
      (.cons ⟨by decide, fun _ same => Option.some.inj same⟩ .nil))
  have closed : IsClosed format.pieces := by
    rw [IsClosed, pieces]
    rintro piece ⟨⟩
    exact id
  obtain ⟨duration, -, read, more⟩ := read_written "{D}d {H2}:{M3}d" rows sound apart separated fits
  have text : format.written rows = "d 04:005d" := by
    rw [written, pieces]
    rfl
  have same : format.read "d 04:005d" = .ok ⟨some 0, some 4, some 5, none⟩ := rfl
  obtain rfl := Except.ok.inj ((text ▸ read).symm.trans same)
  exact ⟨text, more closed⟩

end Format

end Duration

end XmlRecords
