import Mathlib.Data.List.Find
import Mathlib.Data.List.Nodup
import XmlRecords.Proofs.Duration.Units

/-! # Merging durations

Merging is the union of durations that share no unit. It depends neither on the order nor on the
grouping of what is merged, and of all shared units the largest one is told. Assigning magnitudes
one after another is merging too, with a single unit each time, so that a list of them gives the
same duration in every order, and can be cut anywhere (`Duration.merge_is_partial_union`).
-/

namespace XmlRecords

namespace Duration

/-- No unit is set in both durations. -/
def Disjoint (left right : Duration) : Prop :=
  ∀ unit, left.get? unit = none ∨ right.get? unit = none

/-- The unit is set in both durations. -/
def Shares (left right : Duration) (unit : TimeUnit) : Prop :=
  left.get? unit ≠ none ∧ right.get? unit ≠ none

/-- What is set in the duration is what has been set in one of its parts. -/
def IsUnion (parts : List Duration) (whole : Duration) : Prop :=
  ∀ unit magnitude, whole.get? unit = some magnitude ↔
    ∃ part ∈ parts, part.get? unit = some magnitude

theorem Disjoint.symm {left right : Duration} (disjoint : left.Disjoint right) :
    right.Disjoint left :=
  fun unit => (disjoint unit).symm

section Shared

variable {left right : Duration} {unit : TimeUnit} {cause : DurationError}

/-- The units come in the order of their lengths. -/
theorem pairwise_inSeconds :
    TimeUnit.all.Pairwise fun larger smaller => smaller.inSeconds < larger.inSeconds := by
  decide

theorem shares_iff :
    left.Shares right unit ↔ ((left.get? unit).isSome && (right.get? unit).isSome) = true := by
  rw [Shares, Bool.and_eq_true, Option.isSome_iff_ne_none, Option.isSome_iff_ne_none]

theorem sharedUnit?_comm (left right : Duration) :
    left.sharedUnit? right = right.sharedUnit? left := by
  simp only [sharedUnit?, Bool.and_comm]

theorem sharedUnit?_ne_none (shared : left.Shares right unit) : left.sharedUnit? right ≠ none := by
  intro absent
  rcases sharedUnit?_eq_none_iff.mp absent unit with free | free
  · exact shared.1 free
  · exact shared.2 free

/-- The unit that is found is larger than all others that are set in both durations. -/
theorem shares_of_sharedUnit? (found : left.sharedUnit? right = some unit) :
    left.Shares right unit ∧
      ∀ other, left.Shares right other → other = unit ∨ other.inSeconds < unit.inSeconds := by
  simp only [shares_iff]
  obtain ⟨shared, before, behind, units, earlier⟩ := List.find?_eq_some_iff_append.mp found
  refine ⟨shared, fun other again => ?_⟩
  rcases List.mem_append.mp (units ▸ other.mem_all) with member | member
  · have apart := earlier other member
    rw [again] at apart
    cases apart
  · refine (List.mem_cons.mp member).imp_right fun member => ?_
    have sorted := pairwise_inSeconds
    rw [units] at sorted
    exact (List.pairwise_cons.mp (List.pairwise_append.mp sorted).2.1).1 other member

theorem sharedUnit?_eq_some_iff_largest :
    left.sharedUnit? right = some unit ↔
      left.Shares right unit ∧
        ∀ other, left.Shares right other → other.inSeconds ≤ unit.inSeconds := by
  constructor
  · intro found
    obtain ⟨shared, largest⟩ := shares_of_sharedUnit? found
    refine ⟨shared, fun other again => ?_⟩
    rcases largest other again with rfl | smaller
    · exact Nat.le_refl _
    · exact Nat.le_of_lt smaller
  · rintro ⟨shared, largest⟩
    obtain ⟨other, found⟩ := Option.ne_none_iff_exists'.mp (sharedUnit?_ne_none shared)
    obtain ⟨again, larger⟩ := shares_of_sharedUnit? found
    rcases larger unit shared with rfl | smaller
    · exact found
    · exact absurd (largest other again) (Nat.not_le_of_gt smaller)

theorem merge_eq_error_iff :
    left.merge right = .error cause ↔
      ∃ unit, left.sharedUnit? right = some unit ∧ cause = .repeatedUnit unit := by
  rw [merge]
  cases left.sharedUnit? right with
  | none => simp only [reduceCtorEq, false_and, exists_false]
  | some unit => simp only [Except.error.injEq, Option.some.injEq, exists_eq_left', eq_comm]

end Shared

section Union

variable {left right start whole : Duration} {parts : List Duration}

theorem isUnion_singleton : IsUnion [left] whole ↔ left = whole := by
  simp only [IsUnion, List.mem_singleton, exists_eq_left]
  constructor
  · exact fun same => ext_some fun unit magnitude => (same unit magnitude).symm
  · rintro rfl unit magnitude
    exact Iff.rfl

theorem IsUnion.congr {others : List Duration} (same : ∀ part, part ∈ parts ↔ part ∈ others) :
    IsUnion parts whole ↔ IsUnion others whole := by
  simp only [IsUnion, same]

/-- A union is disjoint from what all of its parts are disjoint from. -/
theorem IsUnion.disjoint_iff (union : IsUnion parts whole) {other : Duration} :
    whole.Disjoint other ↔ ∀ part ∈ parts, part.Disjoint other := by
  have free (unit : TimeUnit) :
      whole.get? unit = none ↔ ∀ part ∈ parts, part.get? unit = none := by
    simp only [Option.eq_none_iff_forall_ne_some, ne_eq, union unit, not_exists, not_and]
    exact ⟨fun each part member magnitude => each magnitude part member,
      fun each magnitude part member => each part member magnitude⟩
  simp only [Disjoint, free]
  constructor
  · exact fun each part member unit => (each unit).imp_left fun none => none part member
  · intro each unit
    by_cases set : other.get? unit = none
    · exact .inr set
    · exact .inl fun part member => (each part member unit).resolve_right set

/-- A union can take the place of its parts. -/
theorem IsUnion.cons_iff {others : List Duration} (union : IsUnion parts left) :
    IsUnion (left :: others) whole ↔ IsUnion (parts ++ others) whole := by
  refine forall_congr' fun unit => forall_congr' fun magnitude => iff_congr Iff.rfl ?_
  simp only [List.mem_cons, List.mem_append, or_and_right, exists_or, exists_eq_left, union unit]

/-- Durations are merged exactly if they are disjoint, to their union. -/
theorem merge_eq_ok_iff_isUnion :
    left.merge right = .ok whole ↔ left.Disjoint right ∧ IsUnion [left, right] whole := by
  rw [merge_eq_ok_iff]
  refine and_congr_right fun disjoint => forall_congr' fun unit => ?_
  rw [Option.ext_iff]
  refine forall_congr' fun magnitude => iff_congr Iff.rfl ?_
  simp only [Option.or_eq_some_iff, List.mem_cons, List.not_mem_nil, or_false, exists_eq_or_imp,
    exists_eq_left]
  refine or_congr_right ⟨And.right, fun set => ⟨?_, set⟩⟩
  refine (disjoint unit).resolve_right fun free => ?_
  cases free.symm.trans set

theorem merge_comm (left right : Duration) : left.merge right = right.merge left := by
  cases both : right.merge left with
  | ok whole =>
      obtain ⟨disjoint, union⟩ := merge_eq_ok_iff_isUnion.mp both
      refine merge_eq_ok_iff_isUnion.mpr ⟨disjoint.symm, (IsUnion.congr fun part => ?_).mp union⟩
      exact (List.Perm.swap left right []).mem_iff
  | error cause =>
      obtain ⟨unit, shared, told⟩ := merge_eq_error_iff.mp both
      refine merge_eq_error_iff.mpr ⟨unit, ?_, told⟩
      rwa [sharedUnit?_comm]

theorem unset_disjoint (duration : Duration) : unset.Disjoint duration :=
  fun unit => .inl (get?_unset unit)

theorem unset_merge (duration : Duration) : unset.merge duration = .ok duration := by
  refine merge_eq_ok_iff_isUnion.mpr ⟨unset_disjoint duration, fun unit magnitude => ?_⟩
  simp only [List.mem_cons, List.not_mem_nil, or_false, exists_eq_or_imp, get?_unset, reduceCtorEq,
    false_or, exists_eq_left]

/-- What has been merged is disjoint from others if its parts are. -/
theorem pairwise_merged_iff {middle : Duration} (both : left.merge right = .ok middle) :
    (middle :: parts).Pairwise Disjoint ↔ (left :: right :: parts).Pairwise Disjoint := by
  obtain ⟨disjoint, union⟩ := merge_eq_ok_iff_isUnion.mp both
  simp only [List.pairwise_cons, List.forall_mem_cons, union.disjoint_iff, List.not_mem_nil,
    false_implies, implies_true, and_true, disjoint, true_and, forall_and, and_assoc]

/-- Durations are merged one behind the other exactly if no unit is set in two of them, to the union
of all. -/
theorem foldlM_merge_eq_ok_iff :
    parts.foldlM merge start = .ok whole ↔
      (start :: parts).Pairwise Disjoint ∧ IsUnion (start :: parts) whole := by
  induction parts generalizing start with
  | nil =>
      rw [List.foldlM_nil, Outcome.pure_eq_ok, isUnion_singleton]
      exact (and_iff_right (List.pairwise_singleton _ _)).symm
  | cons part parts ih =>
      simp only [List.foldlM_cons, Outcome.bind_eq_ok, ih]
      constructor
      · rintro ⟨middle, both, pairwise, union⟩
        obtain ⟨_, parted⟩ := merge_eq_ok_iff_isUnion.mp both
        exact ⟨(pairwise_merged_iff both).mp pairwise, parted.cons_iff.mp union⟩
      · rintro ⟨pairwise, union⟩
        obtain ⟨middle, both⟩ :=
          exists_merge (List.rel_of_pairwise_cons pairwise List.mem_cons_self)
        obtain ⟨_, parted⟩ := merge_eq_ok_iff_isUnion.mp both
        exact ⟨middle, both, (pairwise_merged_iff both).mpr pairwise, parted.cons_iff.mpr union⟩

theorem exists_foldlM_merge_iff :
    (∃ whole, parts.foldlM merge start = .ok whole) ↔ (start :: parts).Pairwise Disjoint := by
  refine ⟨fun ⟨whole, merged⟩ => (foldlM_merge_eq_ok_iff.mp merged).1, fun pairwise => ?_⟩
  induction parts generalizing start with
  | nil => exact ⟨start, rfl⟩
  | cons part parts ih =>
      obtain ⟨middle, both⟩ := exists_merge (List.rel_of_pairwise_cons pairwise List.mem_cons_self)
      obtain ⟨whole, merged⟩ := ih ((pairwise_merged_iff both).mpr pairwise)
      exact ⟨whole, Outcome.bind_eq_ok.mpr ⟨middle, both, merged⟩⟩

/-- Three durations are merged as a list of them is. -/
theorem foldlM_merge_pair (first second third : Duration) :
    [second, third].foldlM merge first =
      first.merge second >>= fun both => both.merge third := by
  simp only [List.foldlM_cons, List.foldlM_nil, bind_pure]

/-- Both groupings of three durations are merged to the same. -/
theorem merge_assoc (first second third : Duration) :
    (∃ both, first.merge second = .ok both ∧ both.merge third = .ok whole) ↔
      ∃ both, second.merge third = .ok both ∧ first.merge both = .ok whole := by
  have rotated : List.Perm [first, second, third] [second, third, first] :=
    (List.perm_append_singleton first [second, third]).symm
  simp only [merge_comm first]
  rw [merge_comm second, ← Outcome.bind_eq_ok, ← Outcome.bind_eq_ok, ← foldlM_merge_pair,
    ← foldlM_merge_pair, foldlM_merge_eq_ok_iff, foldlM_merge_eq_ok_iff,
    rotated.pairwise_iff Disjoint.symm, IsUnion.congr fun part => rotated.mem_iff]

/-- What comes behind a duration can be merged by itself first. -/
theorem foldlM_merge_eq_ok_iff_merge (start : Duration) :
    parts.foldlM merge start = .ok whole ↔
      ∃ behind, parts.foldlM merge unset = .ok behind ∧ start.merge behind = .ok whole := by
  induction parts generalizing start whole with
  | nil =>
      simp only [List.foldlM_nil, Outcome.pure_eq_ok, exists_eq_left', merge_comm start,
        unset_merge, Except.ok.injEq]
  | cons part parts ih =>
      simp only [List.foldlM_cons, unset_merge, Outcome.bind_eq_ok, Except.ok.injEq,
        exists_eq_left']
      constructor
      · rintro ⟨middle, both, folded⟩
        obtain ⟨behind, merged, final⟩ := (ih middle).mp folded
        obtain ⟨last, onward, final⟩ := (merge_assoc start part behind).mp ⟨middle, both, final⟩
        exact ⟨last, (ih part).mpr ⟨behind, merged, onward⟩, final⟩
      · rintro ⟨last, folded, final⟩
        obtain ⟨behind, merged, onward⟩ := (ih part).mp folded
        obtain ⟨middle, both, final⟩ := (merge_assoc start part behind).mpr ⟨last, onward, final⟩
        exact ⟨middle, both, (ih middle).mpr ⟨behind, merged, final⟩⟩

end Union

section Assigning

variable {start duration whole : Duration} {pairs others : List (TimeUnit × UInt64)}
  {unit : TimeUnit} {cause : DurationError}

theorem get?_set (start : Duration) (unit other : TimeUnit) (magnitude : UInt64) :
    (start.set unit magnitude).get? other =
      if other = unit then some magnitude else start.get? other := by
  cases unit <;> cases other <;> rfl

/-- Only one unit can be shared with a single one. -/
theorem shares_single_iff {other : TimeUnit} {magnitude : UInt64} :
    start.Shares (single unit magnitude) other ↔ other = unit ∧ start.get? unit ≠ none := by
  rw [Shares, get?_single]
  by_cases same : other = unit
  · simp only [same, ↓reduceIte, ne_eq, reduceCtorEq, not_false_eq_true, and_true, true_and]
  · simp only [same, ↓reduceIte, ne_eq, not_true_eq_false, and_false, false_and]

theorem disjoint_single_iff {magnitude : UInt64} :
    start.Disjoint (single unit magnitude) ↔ start.get? unit = none := by
  constructor
  · intro disjoint
    refine (disjoint unit).resolve_right ?_
    rw [get?_single, if_pos rfl]
    exact Option.some_ne_none magnitude
  · intro free other
    by_cases same : other = unit
    · exact .inl (same ▸ free)
    · exact .inr ((get?_single unit other magnitude).trans (if_neg same))

/-- A magnitude is assigned as a duration of its own is merged. -/
theorem assign_eq_merge (start : Duration) (pair : TimeUnit × UInt64) :
    start.assign pair = start.merge (single pair.1 pair.2) := by
  rw [assign]
  cases set : start.get? pair.1 with
  | none =>
      refine (merge_eq_ok_iff.mpr ⟨disjoint_single_iff.mpr set, fun unit => ?_⟩).symm
      rw [get?_set, get?_single]
      by_cases same : unit = pair.1
      · rw [if_pos same, if_pos same, same, set, Option.none_or]
      · rw [if_neg same, if_neg same, Option.or_none]
  | some magnitude =>
      refine (merge_eq_error_iff.mpr ⟨pair.1, sharedUnit?_eq_some_iff_largest.mpr ?_, rfl⟩).symm
      simp only [shares_single_iff, set, ne_eq, reduceCtorEq, not_false_eq_true, and_true, true_and]
      rintro other rfl
      exact Nat.le_refl _

theorem get?_single_eq_some {other : TimeUnit} {magnitude number : UInt64} :
    (single unit magnitude).get? other = some number ↔ (other, number) = (unit, magnitude) := by
  rw [get?_single, Prod.mk.injEq, Option.ite_none_right_eq_some, Option.some.injEq,
    eq_comm (a := number)]

/-- The durations of the pairs, each with the unit of its pair alone. -/
def singles (pairs : List (TimeUnit × UInt64)) : List Duration :=
  pairs.map fun pair => single pair.1 pair.2

theorem foldlM_assign_eq_foldlM_merge (pairs : List (TimeUnit × UInt64)) (start : Duration) :
    pairs.foldlM assign start = (singles pairs).foldlM merge start := by
  rw [singles, List.foldlM_map]
  congr 1
  funext start pair
  exact assign_eq_merge start pair

theorem pairwise_disjoint_singles_iff :
    (unset :: singles pairs).Pairwise Disjoint ↔ (pairs.map Prod.fst).Nodup := by
  rw [List.pairwise_cons, and_iff_right fun _ _ => unset_disjoint _, singles, List.pairwise_map,
    List.Nodup, List.pairwise_map]
  refine List.Pairwise.iff fun first second => ?_
  rw [disjoint_single_iff, get?_single, ite_eq_right_iff, ne_comm]
  exact imp_congr_right fun _ => iff_of_false (Option.some_ne_none _) id

/-- Pairs give a duration exactly if no unit comes twice; it has the magnitudes of the pairs. -/
theorem ofPairs_eq_ok_iff :
    ofPairs pairs = .ok whole ↔
      (pairs.map Prod.fst).Nodup ∧
        ∀ unit magnitude, whole.get? unit = some magnitude ↔ (unit, magnitude) ∈ pairs := by
  rw [ofPairs, foldlM_assign_eq_foldlM_merge, foldlM_merge_eq_ok_iff, pairwise_disjoint_singles_iff]
  refine and_congr_right fun _ => forall_congr' fun unit => forall_congr' fun magnitude => ?_
  refine iff_congr Iff.rfl ?_
  simp only [List.mem_cons, exists_eq_or_imp, get?_unset, reduceCtorEq, false_or, singles,
    List.mem_map, exists_exists_and_eq_and, get?_single_eq_some, exists_eq_right']

theorem exists_ofPairs_iff :
    (∃ whole, ofPairs pairs = .ok whole) ↔ (pairs.map Prod.fst).Nodup := by
  rw [ofPairs, foldlM_assign_eq_foldlM_merge, exists_foldlM_merge_iff,
    pairwise_disjoint_singles_iff]

/-- Pairs give the same duration in every order. -/
theorem ofPairs_perm (reordered : pairs.Perm others) :
    ofPairs pairs = .ok whole ↔ ofPairs others = .ok whole := by
  simp only [ofPairs_eq_ok_iff, (reordered.map Prod.fst).nodup_iff, reordered.mem_iff]

/-- Pairs that are assigned to a duration are merged into it. -/
theorem foldlM_assign_eq_ok_iff :
    pairs.foldlM assign start = .ok whole ↔
      ∃ behind, ofPairs pairs = .ok behind ∧ start.merge behind = .ok whole := by
  simp only [ofPairs, foldlM_assign_eq_foldlM_merge]
  exact foldlM_merge_eq_ok_iff_merge start

/-- The pairs of two lists give what the durations of the lists are merged to. -/
theorem ofPairs_append_eq_ok_iff :
    ofPairs (pairs ++ others) = .ok whole ↔
      ∃ first second, ofPairs pairs = .ok first ∧ ofPairs others = .ok second ∧
        first.merge second = .ok whole := by
  have onward : ofPairs (pairs ++ others) = ofPairs pairs >>= others.foldlM assign :=
    List.foldlM_append
  simp only [onward, Outcome.bind_eq_ok, foldlM_assign_eq_ok_iff, exists_and_left]

end Assigning

section Loop

variable {left right start : Duration} {pairs : List (TimeUnit × UInt64)} {cause : DurationError}

theorem mem_setUnits {unit : TimeUnit} {magnitude : UInt64} :
    (unit, magnitude) ∈ right.setUnits ↔ right.get? unit = some magnitude := by
  simp only [setUnits, List.mem_filterMap, Option.map_eq_some_iff, Prod.mk.injEq]
  constructor
  · rintro ⟨_, _, _, set, rfl, rfl⟩
    exact set
  · exact fun set => ⟨unit, unit.mem_all, magnitude, set, rfl, rfl⟩

theorem nodup_setUnits (duration : Duration) : (duration.setUnits.map Prod.fst).Nodup := by
  rw [setUnits, List.map_filterMap]
  refine List.Nodup.filterMap (fun first second unit here there => ?_) (by decide)
  simp only [Option.map_map, Option.mem_def, Option.map_eq_some_iff] at here there
  obtain ⟨_, _, rfl⟩ := here
  obtain ⟨_, _, rfl⟩ := there
  rfl

/-- A duration has the pairs of its set units. -/
theorem ofPairs_setUnits (duration : Duration) : ofPairs duration.setUnits = .ok duration :=
  ofPairs_eq_ok_iff.mpr ⟨nodup_setUnits duration, fun _ _ => mem_setUnits.symm⟩

/-- Of pairs with different units the first one decides whose unit is set before. -/
theorem foldlM_assign_eq_error_iff (distinct : (pairs.map Prod.fst).Nodup) :
    pairs.foldlM assign start = .error cause ↔
      ∃ pair, pairs.find? (fun pair => (start.get? pair.1).isSome) = some pair ∧
        cause = .repeatedUnit pair.1 := by
  induction pairs generalizing start with
  | nil => simp only [List.foldlM_nil, pure, Except.pure, reduceCtorEq, List.find?_nil, false_and,
      exists_false]
  | cons pair pairs ih =>
      obtain ⟨other, distinct⟩ := List.nodup_cons.mp distinct
      rw [List.foldlM_cons, Outcome.bind_eq_error, List.find?_cons, assign]
      cases set : start.get? pair.1 with
      | some magnitude =>
          simp only [Except.error.injEq, reduceCtorEq, false_and, exists_false, or_false,
            Option.isSome_some, Option.some.injEq, exists_eq_left', eq_comm]
      | none =>
          have same : pairs.find? (fun other => ((start.set pair.1 pair.2).get? other.1).isSome) =
              pairs.find? fun other => (start.get? other.1).isSome := by
            refine List.find?_congr fun second member => ?_
            rw [get?_set, if_neg]
            rintro again
            exact other (again ▸ List.mem_map_of_mem member)
          simp only [reduceCtorEq, Except.ok.injEq, exists_eq_left', false_or, ih distinct, same,
            Option.isSome_none]

theorem find?_setUnits (left right : Duration) :
    (right.setUnits.find? fun pair => (left.get? pair.1).isSome).map Prod.fst =
      left.sharedUnit? right := by
  have entry (unit : TimeUnit) :
      ((right.get? unit).map fun magnitude => (unit, magnitude)).any
        (fun pair => (left.get? pair.1).isSome) =
          ((left.get? unit).isSome && (right.get? unit).isSome) := by
    cases right.get? unit <;> simp
  rw [setUnits, List.find?_filterMap, sharedUnit?]
  simp only [entry]
  cases found : TimeUnit.all.find? fun unit =>
      (left.get? unit).isSome && (right.get? unit).isSome with
  | none => rfl
  | some unit =>
      obtain ⟨⟨_, there⟩, _⟩ := shares_of_sharedUnit? found
      obtain ⟨magnitude, set⟩ := Option.ne_none_iff_exists'.mp there
      rw [Option.bind_some, set]
      rfl

/-- A duration is merged into another one by assigning its set units to it, the largest first. -/
theorem merge_eq_foldlM_assign (left right : Duration) :
    left.merge right = right.setUnits.foldlM assign left := by
  cases assigned : right.setUnits.foldlM assign left with
  | ok whole =>
      obtain ⟨behind, pairs, both⟩ := foldlM_assign_eq_ok_iff.mp assigned
      cases pairs.symm.trans (ofPairs_setUnits right)
      exact both
  | error cause =>
      obtain ⟨pair, found, told⟩ :=
        (foldlM_assign_eq_error_iff (nodup_setUnits right)).mp assigned
      refine merge_eq_error_iff.mpr ⟨pair.1, ?_, told⟩
      rw [← find?_setUnits, found, Option.map_some]

end Loop

/-- Durations form a partial commutative monoid under merging, and a list of pairs is merged in it.
Merging assigns the set units of the right side to the left side, the largest first. Either side can
come first; if units are shared, the error names the largest of them in both cases. Three durations
are merged, in both groupings to the same, exactly if no unit is set in two of them, and merging the
duration with no unit changes nothing. Pairs are assigned by merging a duration with a single unit
for each of them. They give a duration exactly if no unit comes twice, the same one in every order,
and the pairs of two lists give what is merged from the durations of both. -/
theorem merge_is_partial_union :
    ((∀ left right : Duration, left.merge right = right.setUnits.foldlM assign left) ∧
      (∀ left right : Duration, left.merge right = right.merge left) ∧
      (∀ (left right : Duration) cause, left.merge right = .error cause ↔
        ∃ unit, (left.Shares right unit ∧
          ∀ other, left.Shares right other → other.inSeconds ≤ unit.inSeconds) ∧
            cause = .repeatedUnit unit) ∧
      (∀ first second third : Duration,
        ((∃ whole, (first.merge second >>= fun both => both.merge third) = .ok whole) ↔
          [first, second, third].Pairwise Disjoint) ∧
        ∀ whole, (first.merge second >>= fun both => both.merge third) = .ok whole ↔
          (second.merge third >>= fun both => first.merge both) = .ok whole) ∧
      ∀ duration : Duration, unset.merge duration = .ok duration ∧
        duration.merge unset = .ok duration) ∧
    (∀ pairs, ofPairs pairs =
      pairs.foldlM (fun start pair => start.merge (single pair.1 pair.2)) unset) ∧
    (∀ pairs, (∃ whole, ofPairs pairs = .ok whole) ↔ (pairs.map Prod.fst).Nodup) ∧
    (∀ pairs others whole, pairs.Perm others →
      (ofPairs pairs = .ok whole ↔ ofPairs others = .ok whole)) ∧
    ∀ pairs others whole, ofPairs (pairs ++ others) = .ok whole ↔
      ∃ first second, ofPairs pairs = .ok first ∧ ofPairs others = .ok second ∧
        first.merge second = .ok whole := by
  refine ⟨⟨merge_eq_foldlM_assign, merge_comm, fun left right cause => ?_,
    fun first second third => ⟨?_, fun whole => ?_⟩, fun duration => ?_⟩, fun pairs => ?_,
    fun _ => exists_ofPairs_iff, fun _ _ _ => ofPairs_perm, fun _ _ _ => ofPairs_append_eq_ok_iff⟩
  · simp only [merge_eq_error_iff, sharedUnit?_eq_some_iff_largest]
  · rw [← foldlM_merge_pair, exists_foldlM_merge_iff]
  · rw [Outcome.bind_eq_ok, Outcome.bind_eq_ok, merge_assoc]
  · exact ⟨unset_merge duration, merge_comm duration unset ▸ unset_merge duration⟩
  · rw [ofPairs, foldlM_assign_eq_foldlM_merge, singles, List.foldlM_map]

/-- Days and hours in both orders, a unit set to zero that is set a second time, and a duration in
two parts. -/
theorem merge_is_partial_union_zero :
    let days : TimeUnit × UInt64 := (.days, 2)
    let hours : TimeUnit × UInt64 := (.hours, 0)
    let whole : Duration := ⟨some 2, some 0, none, none⟩
    [days, hours].Perm [hours, days] ∧ ofPairs [days, hours] = .ok whole ∧
      ofPairs [hours, days] = .ok whole ∧
      whole.merge (single .hours 0) = .error (.repeatedUnit .hours) ∧
      (single .hours 0).merge whole = .error (.repeatedUnit .hours) := by
  intro days hours whole
  obtain ⟨⟨_, commutes, _⟩, _, _, reordered, _⟩ := merge_is_partial_union
  have swapped : [days, hours].Perm [hours, days] := .swap hours days []
  have read : ofPairs [days, hours] = .ok whole := rfl
  have again : whole.merge (single .hours 0) = .error (.repeatedUnit .hours) := rfl
  exact ⟨swapped, read, (reordered _ _ _ swapped).mp read, again, commutes _ _ ▸ again⟩

end Duration

end XmlRecords
