import XmlRecords.Proofs.Duration.Merging
import XmlRecords.Proofs.Duration.Segments

/-! # Why a text is not read by a format

A text can be refused for many reasons at once, and one of them is told
(`Duration.Format.read_tells_first_fault`). Widths come first: a field whose width is no number is
told before anything is read. Then the segments are read from left to right, and the first of them
decides that cannot be read by its piece, or whose piece names a unit again. Before that segment all
went well, so that the units set so far are those that the pieces in front of it name.
-/

namespace XmlRecords

namespace Duration

/-- A duration with one unit shares that unit or none. -/
theorem sharedUnit?_eq_some_iff {left right : Duration} {unit : TimeUnit}
    (only : ∀ other magnitude, right.get? other = some magnitude → other = unit) :
    left.sharedUnit? right = some unit ↔
      (∃ magnitude, left.get? unit = some magnitude) ∧
        ∃ magnitude, right.get? unit = some magnitude := by
  rw [sharedUnit?_eq_some_iff_largest, Shares, Option.ne_none_iff_exists',
    Option.ne_none_iff_exists', and_iff_left_iff_imp]
  rintro - other ⟨-, shared⟩
  obtain ⟨magnitude, set⟩ := Option.ne_none_iff_exists'.mp shared
  exact Nat.le_of_eq (congrArg TimeUnit.inSeconds (only other magnitude set))

namespace Format

/-- The segment is read by its piece, which names no unit that a piece before it names. -/
def IsMerged (before : List (Piece × List Char)) (pair : Piece × List Char) : Prop :=
  (∃ duration, pair.1.read pair.2 = .ok duration) ∧ ∀ earlier ∈ before, earlier.1.Apart pair.1

/-- The segment is not read by its piece, for this cause; or it is, and its piece names a unit that
a piece before it names already. -/
def IsRefused (before : List (Piece × List Char)) (pair : Piece × List Char)
    (cause : DurationError) : Prop :=
  pair.1.read pair.2 = .error cause ∨
    (∃ duration, pair.1.read pair.2 = .ok duration) ∧
      ∃ unit, pair.1.Names unit ∧ (∃ earlier ∈ before, earlier.1.Names unit) ∧
        cause = .repeatedUnit unit

variable {before pairs : List (Piece × List Char)} {pair : Piece × List Char}
  {start : Duration} {cause : DurationError}

/-- What has been read so far has the units that the pieces so far name. -/
theorem exists_get?_iff (read : before.foldlM mergeSegment unset = .ok start) (unit : TimeUnit) :
    (∃ magnitude, start.get? unit = some magnitude) ↔ ∃ pair ∈ before, pair.1.Names unit := by
  obtain ⟨proper, -, -, final⟩ := foldlM_mergeSegment_eq_ok_iff.mp read
  simp only [final, get?_unset, reduceCtorEq, false_or]
  constructor
  · rintro ⟨magnitude, pair, member, names, -⟩
    exact ⟨pair, member, names⟩
  · rintro ⟨pair, member, names⟩
    obtain ⟨magnitude, number⟩ := names.exists_magnitude (proper pair member).2
    exact ⟨magnitude, pair, member, names, number⟩

theorem exists_mergeSegment_iff (read : before.foldlM mergeSegment unset = .ok start) :
    (∃ merged, mergeSegment start pair = .ok merged) ↔ IsMerged before pair := by
  have free : (∀ unit, pair.1.Names unit → start.get? unit = none) ↔
      ∀ earlier ∈ before, earlier.1.Apart pair.1 := by
    constructor
    · intro new earlier member unit named again
      obtain ⟨magnitude, set⟩ := (exists_get?_iff read unit).mpr ⟨earlier, member, named⟩
      cases (new unit again).symm.trans set
    · intro apart unit names
      refine Option.eq_none_iff_forall_ne_some.mpr fun magnitude set => ?_
      obtain ⟨earlier, member, named⟩ := (exists_get?_iff read unit).mp ⟨magnitude, set⟩
      exact apart earlier member unit named names
  rw [IsMerged, ← free, Piece.exists_read_iff]
  constructor
  · rintro ⟨merged, both⟩
    obtain ⟨proper, new, -⟩ := mergeSegment_eq_ok_iff.mp both
    exact ⟨proper, new⟩
  · rintro ⟨proper, new⟩
    exact exists_mergeSegment proper new

theorem mergeSegment_eq_error_iff (read : before.foldlM mergeSegment unset = .ok start) :
    mergeSegment start pair = .error cause ↔ IsRefused before pair cause := by
  simp only [mergeSegment, Outcome.bind_eq_error, merge_eq_error_iff, IsRefused,
    ← exists_get?_iff read]
  refine or_congr_right ⟨?_, ?_⟩
  · rintro ⟨part, segmentRead, unit, shared, rfl⟩
    have both := List.find?_some shared
    rw [Bool.and_eq_true] at both
    obtain ⟨magnitude, set⟩ := Option.isSome_iff_exists.mp both.2
    have names := ((Piece.get?_of_read segmentRead).mp set).1
    exact ⟨⟨part, segmentRead⟩, unit, names, Option.isSome_iff_exists.mp both.1, rfl⟩
  · rintro ⟨⟨part, segmentRead⟩, unit, names, before, rfl⟩
    have accepts := (Piece.exists_read_iff.mp ⟨part, segmentRead⟩).2
    obtain ⟨magnitude, number⟩ := names.exists_magnitude accepts
    have set := (Piece.get?_of_read segmentRead).mpr ⟨names, number⟩
    refine ⟨part, segmentRead, unit, (sharedUnit?_eq_some_iff ?_).mpr ⟨before, _, set⟩, rfl⟩
    intro other number set
    exact ((Piece.get?_of_read segmentRead).mp set).1.unique names

theorem foldlM_mergeSegment_eq_error_iff (read : before.foldlM mergeSegment unset = .ok start) :
    pairs.foldlM mergeSegment start = .error cause ↔
      Outcome.FirstFault (fun prior => IsMerged (before ++ prior))
        (fun prior => IsRefused (before ++ prior)) pairs cause := by
  induction pairs generalizing before start with
  | nil => exact ⟨nofun, fun first => (Outcome.not_firstFault_nil first).elim⟩
  | cons pair pairs ih =>
      rw [Outcome.firstFault_cons_iff, List.foldlM_cons, Outcome.bind_eq_error, List.append_nil,
        mergeSegment_eq_error_iff read, ← exists_mergeSegment_iff read]
      refine or_congr_right ?_
      have onward {middle : Duration} (merged : mergeSegment start pair = .ok middle) :
          (before ++ [pair]).foldlM mergeSegment unset = .ok middle := by
        rw [List.foldlM_append, read]
        exact Outcome.bind_eq_ok.mpr ⟨start, rfl, Outcome.bind_eq_ok.mpr ⟨middle, merged, rfl⟩⟩
      constructor
      · rintro ⟨middle, merged, failed⟩
        rw [ih (onward merged)] at failed
        simp only [List.append_assoc, List.singleton_append] at failed
        exact ⟨⟨middle, merged⟩, failed⟩
      · rintro ⟨⟨middle, merged⟩, failed⟩
        refine ⟨middle, merged, ?_⟩
        rw [ih (onward merged)]
        simp only [List.append_assoc, List.singleton_append]
        exact failed

/-- A format that reads some text has sound pieces, no two of which name the same unit. -/
theorem apart_of_read {format : Format} {text : String} {duration : Duration}
    (read : format.read text = .ok duration) :
    (∀ piece ∈ format.pieces, piece.IsSound) ∧ format.pieces.Pairwise Piece.Apart := by
  obtain ⟨segments, cut, folded⟩ := Outcome.bind_eq_ok.mp read
  obtain ⟨proper, apart, -⟩ := foldlM_mergeSegment_eq_ok_iff.mp folded
  have pieces : (format.pieces.zip segments).map Prod.fst = format.pieces :=
    List.map_fst_zip (Nat.le_of_eq (length_of_segmentsFrom cut).symm)
  rw [← List.pairwise_map, pieces] at apart
  refine ⟨fun piece member => ?_, apart⟩
  rw [← pieces] at member
  obtain ⟨pair, paired, rfl⟩ := List.mem_map.mp member
  exact (proper pair paired).1

/-- Of the faults of a format and a text, one is told. If the width of a field is no number, it is
that of the first such field, whatever the other pieces and the text are. Otherwise the text is cut
into segments, and the first of them decides that its piece cannot read, or whose piece names a unit
again. A format in which two fields name the same unit therefore reads no text at all. -/
theorem read_tells_first_fault (format : Format) (text : String) :
    (∀ cause, format.read text = .error cause ↔
      FirstMalformed format.pieces cause ∨
        (∀ piece ∈ format.pieces, piece.IsSized) ∧
          ∃ segments, format.segments text = .ok segments ∧
            Outcome.FirstFault IsMerged IsRefused (format.pieces.zip segments) cause) ∧
      ∀ first second delimiter stop unit,
        [.field first delimiter, .field second stop].Sublist format.pieces →
          Piece.fieldUnit first = .ok unit → Piece.fieldUnit second = .ok unit →
            ∃ cause, format.read text = .error cause := by
  constructor
  · intro cause
    have folded (segments : List (List Char)) :
        (format.pieces.zip segments).foldlM mergeSegment unset = .error cause ↔
          Outcome.FirstFault IsMerged IsRefused (format.pieces.zip segments) cause :=
      foldlM_mergeSegment_eq_error_iff (List.foldlM_nil ..)
    rw [read, Outcome.bind_eq_error]
    simp only [folded, segments, segmentsFrom_eq_error_iff]
    refine or_congr_right ⟨?_, And.right⟩
    rintro ⟨segments, cut, failed⟩
    exact ⟨exists_segmentsFrom_iff.mp ⟨segments, cut⟩, segments, cut, failed⟩
  · intro first second delimiter stop unit both named again
    rw [Outcome.eq_error_iff]
    rintro ⟨duration, read⟩
    obtain ⟨sound, apart⟩ := apart_of_read read
    have names {spec : String} {delimiter : Option Char}
        (member : .field spec delimiter ∈ format.pieces)
        (named : Piece.fieldUnit spec = .ok unit) : (Piece.field spec delimiter).Names unit := by
      obtain ⟨other, names⟩ := sound _ member rfl
      cases named.symm.trans (Piece.names_field_iff.mp names).1
      exact names
    have different := List.pairwise_pair.mp (apart.sublist both)
    have members := both.subset
    exact different unit (names (members List.mem_cons_self) named)
      (names (members (List.mem_cons_of_mem _ List.mem_cons_self)) again)

/-- Hours twice: not even nothing is read, since an empty field sets its unit to zero. -/
theorem read_tells_first_fault_hours :
    let format := compile "{H2}{H}"
    format.pieces = [.field "H2" none, .field "H" none] ∧
      Outcome.FirstFault IsMerged IsRefused (format.pieces.zip [[], []])
        (.repeatedUnit .hours) ∧
      ∀ text, ∃ cause, format.read text = .error cause := by
  intro format
  have pieces : format.pieces = [.field "H2" none, .field "H" none] := rfl
  have refused : format.read "" = .error (.repeatedUnit .hours) := rfl
  have cut : format.segments "" = .ok [[], []] := rfl
  refine ⟨pieces, ?_, fun text => ?_⟩
  · rcases ((read_tells_first_fault format "").1 _).mp refused with
      ⟨_, _, _, _, _, _, other⟩ | ⟨-, segments, same, first⟩
    · cases other
    · cases cut.symm.trans same
      exact first
  · exact (read_tells_first_fault format text).2 "H2" "H" none none .hours
      (pieces ▸ .refl _) rfl rfl

end Format

end Duration

end XmlRecords
