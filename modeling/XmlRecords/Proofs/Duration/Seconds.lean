import Mathlib.Algebra.BigOperators.Group.List.Basic
import Mathlib.Algebra.GroupWithZero.Nat
import XmlRecords.Proofs.Duration.Units

/-! # The length of a duration

The seconds of a duration are counted in 64 bits, and each product and each sum on the way stops at
the greatest number of that size. Once it has been reached nothing comes back from it, so that all
this is the same as counting exactly and cutting off the result. The seconds of a merged duration
are therefore those of both parts, cut off once more (`Duration.totalSeconds_saturates_once`).
-/

namespace XmlRecords

namespace Duration

/-- The seconds of a duration without a limit: the magnitude of each unit, nothing for a unit that
is not set, times the length of the unit. -/
def exactSeconds (duration : Duration) : Nat :=
  (TimeUnit.all.map fun unit =>
    (duration.get? unit).elim 0 UInt64.toNat * unit.inSeconds).sum

/-- The product may be cut off before the sum is. -/
theorem toNat_addSeconds (total : UInt64) (pair : TimeUnit × UInt64) :
    (addSeconds total pair).toNat =
      min (2 ^ 64 - 1) (total.toNat + pair.2.toNat * pair.1.inSeconds) := by
  have cut (number : Nat) :
      (UInt64.ofNat (min number (UInt64.size - 1))).toNat = min (2 ^ 64 - 1) number := by
    have bound : min number (UInt64.size - 1) < UInt64.size :=
      Nat.lt_of_le_of_lt (Nat.min_le_right _ _) (by decide)
    rw [UInt64.toNat_ofNat_of_lt' bound, Nat.min_comm]
    rfl
  rw [addSeconds, cut, cut]
  -- A product that is cut off brings the sum to the limit as well.
  omega

/-- Magnitudes that are added one after another are added exactly, up to the limit. -/
theorem toNat_foldl_addSeconds (pairs : List (TimeUnit × UInt64)) (total : UInt64) :
    (pairs.foldl addSeconds total).toNat =
      min (2 ^ 64 - 1)
        (total.toNat + (pairs.map fun pair => pair.2.toNat * pair.1.inSeconds).sum) := by
  induction pairs generalizing total with
  | nil =>
      have bound : total.toNat < 2 ^ 64 := total.toNat_lt
      rw [List.foldl_nil, List.map_nil, List.sum_nil]
      omega
  | cons pair pairs ih =>
      rw [List.foldl_cons, ih, toNat_addSeconds, List.map_cons, List.sum_cons]
      omega

/-- Units that are not set add nothing. -/
theorem sum_setUnits (duration : Duration) :
    (duration.setUnits.map fun pair => pair.2.toNat * pair.1.inSeconds).sum =
      duration.exactSeconds := by
  rw [setUnits, exactSeconds]
  induction TimeUnit.all with
  | nil => rfl
  | cons unit units ih =>
      cases set : duration.get? unit with
      | none =>
          rw [List.filterMap_cons_none (by rw [set, Option.map_none]), ih, List.map_cons, set,
            Option.elim_none, Nat.zero_mul, List.sum_cons, Nat.zero_add]
      | some magnitude =>
          rw [List.filterMap_cons_some (by rw [set, Option.map_some]), List.map_cons, List.sum_cons,
            ih, List.map_cons, set, List.sum_cons, Option.elim_some]

theorem toNat_totalSeconds (duration : Duration) :
    duration.totalSeconds.toNat = min (2 ^ 64 - 1) duration.exactSeconds := by
  rw [totalSeconds, toNat_foldl_addSeconds, sum_setUnits, UInt64.toNat_zero, Nat.zero_add]

/-- Merged durations have the seconds of both. -/
theorem exactSeconds_of_merge {left right merged : Duration}
    (both : left.merge right = .ok merged) :
    merged.exactSeconds = left.exactSeconds + right.exactSeconds := by
  obtain ⟨disjoint, each⟩ := merge_eq_ok_iff.mp both
  rw [exactSeconds, exactSeconds, exactSeconds, ← List.sum_map_add]
  refine congrArg List.sum (List.map_congr_left fun unit _ => ?_)
  rw [each unit, ← Nat.add_mul]
  rcases disjoint unit with free | free
  · rw [free, Option.none_or, Option.elim_none, Nat.zero_add]
  · rw [free, Option.or_none, Option.elim_none, Nat.add_zero]

/-- The seconds of a duration are cut off once, however often they are on the way: they are the
exact number, or the greatest number of 64 bits if that is less. The same holds of a merged duration
and the seconds of its parts. -/
theorem totalSeconds_saturates_once :
    (∀ duration : Duration,
      duration.totalSeconds.toNat = min (2 ^ 64 - 1) duration.exactSeconds) ∧
    ∀ left right merged : Duration, left.merge right = .ok merged →
      merged.totalSeconds.toNat =
        min (2 ^ 64 - 1) (left.totalSeconds.toNat + right.totalSeconds.toNat) := by
  refine ⟨toNat_totalSeconds, fun left right merged both => ?_⟩
  simp only [toNat_totalSeconds, exactSeconds_of_merge both]
  omega

/-- Days that leave room for less than a day of seconds, and one second too many. -/
theorem totalSeconds_saturates_once_days :
    let left : Duration := ⟨some 213503982334601, none, none, none⟩
    let right : Duration := ⟨none, none, some 420, some 16⟩
    ∃ merged, left.merge right = .ok merged ∧
      merged.exactSeconds = 2 ^ 64 ∧
      left.totalSeconds.toNat + right.totalSeconds.toNat = 2 ^ 64 ∧
      merged.totalSeconds.toNat = 2 ^ 64 - 1 := by
  intro left right
  have both : left.merge right = .ok ⟨some 213503982334601, none, some 420, some 16⟩ := rfl
  have parts : left.totalSeconds.toNat + right.totalSeconds.toNat = 2 ^ 64 := by decide
  refine ⟨_, both, by decide, parts, ?_⟩
  rw [totalSeconds_saturates_once.2 left right _ both, parts]
  decide

end Duration

end XmlRecords
