import XmlRecords.Duration.Basic
import XmlRecords.Proofs.Outcome

/-! # Durations, unit by unit

A duration is what it has for each unit. Two durations are merged if no unit is set in both, and
the result has for each unit what one of them has.
-/

namespace XmlRecords

theorem TimeUnit.mem_all (unit : TimeUnit) : unit ∈ all := by
  cases unit <;> decide

instance TimeUnit.decidableForall {property : TimeUnit → Prop} [DecidablePred property] :
    Decidable (∀ unit, property unit) :=
  decidable_of_iff (∀ unit ∈ all, property unit)
    ⟨fun each unit => each unit unit.mem_all, fun each unit _ => each unit⟩

instance TimeUnit.decidableExists {property : TimeUnit → Prop} [DecidablePred property] :
    Decidable (∃ unit, property unit) :=
  decidable_of_iff (∃ unit ∈ all, property unit)
    ⟨fun ⟨unit, _, holds⟩ => ⟨unit, holds⟩, fun ⟨unit, holds⟩ => ⟨unit, unit.mem_all, holds⟩⟩

/-- The letters of units are all different. -/
theorem TimeUnit.ofLetter?_eq_some_iff {letter : Char} {unit : TimeUnit} :
    ofLetter? letter = some unit ↔ letter = unit.letter := by
  constructor
  · intro named
    unfold ofLetter? at named
    split at named <;> cases named <;> rfl
  · rintro rfl
    cases unit <;> rfl

namespace Duration

/-- Durations that have the same magnitude for each unit are equal. -/
theorem ext_get? {left right : Duration} (same : ∀ unit, left.get? unit = right.get? unit) :
    left = right := by
  obtain ⟨days, hours, minutes, seconds⟩ := left
  obtain ⟨otherDays, otherHours, otherMinutes, otherSeconds⟩ := right
  obtain rfl : days = otherDays := same .days
  obtain rfl : hours = otherHours := same .hours
  obtain rfl : minutes = otherMinutes := same .minutes
  obtain rfl : seconds = otherSeconds := same .seconds
  rfl

/-- Durations in which the same units are set to the same magnitudes are equal. -/
theorem ext_some {left right : Duration}
    (same : ∀ unit magnitude, left.get? unit = some magnitude ↔ right.get? unit = some magnitude) :
    left = right :=
  ext_get? fun unit => Option.ext (same unit)

@[simp]
theorem get?_unset (unit : TimeUnit) : unset.get? unit = none := by
  cases unit <;> rfl

/-- A duration of one part has no other. -/
theorem get?_single (unit other : TimeUnit) (magnitude : UInt64) :
    (single unit magnitude).get? other = if other = unit then some magnitude else none := by
  cases unit <;> cases other <;> rfl

/-- The number is below `2 ^ 64`, so it is the magnitude that was read. -/
theorem get?_single_eq_some_iff {unit other : TimeUnit} {number : Nat} {magnitude : UInt64}
    (bound : number < UInt64.size) :
    (single unit (UInt64.ofNat number)).get? other = some magnitude ↔
      other = unit ∧ magnitude.toNat = number := by
  have denoted : (UInt64.ofNat number).toNat = number := UInt64.toNat_ofNat_of_lt' bound
  rw [get?_single]
  by_cases same : other = unit
  · rw [if_pos same, Option.some.injEq, ← UInt64.toNat_inj, denoted]
    exact ⟨fun number => ⟨same, number.symm⟩, fun set => set.2.symm⟩
  · simp only [same, ↓reduceIte, reduceCtorEq, false_and]

/-- Two durations share no unit if of each unit one of them has no part. -/
theorem sharedUnit?_eq_none_iff {left right : Duration} :
    left.sharedUnit? right = none ↔ ∀ unit, left.get? unit = none ∨ right.get? unit = none := by
  rw [sharedUnit?, List.find?_eq_none]
  constructor
  · intro free unit
    have apart := free unit unit.mem_all
    cases here : left.get? unit with
    | none => exact .inl rfl
    | some magnitude =>
        rw [here, Option.isSome_some, Bool.true_and] at apart
        exact .inr (Option.not_isSome_iff_eq_none.mp apart)
  · intro free unit _ both
    rw [Bool.and_eq_true] at both
    rcases free unit with none | none
    · rw [none] at both
      cases both.1
    · rw [none] at both
      cases both.2

/-- Durations are merged exactly if no unit is set in both, and the result has for each unit what
one of them has. -/
theorem merge_eq_ok_iff {left right merged : Duration} :
    left.merge right = .ok merged ↔
      (∀ unit, left.get? unit = none ∨ right.get? unit = none) ∧
        ∀ unit, merged.get? unit = (left.get? unit).or (right.get? unit) := by
  rw [← sharedUnit?_eq_none_iff, merge]
  cases shared : left.sharedUnit? right with
  | some unit => simp only [reduceCtorEq, false_and]
  | none =>
      simp only [Except.ok.injEq, true_and]
      constructor
      · rintro rfl unit
        cases unit <;> rfl
      · intro each
        refine ext_get? fun unit => ?_
        rw [each unit]
        cases unit <;> rfl

/-- Durations without a shared unit can be merged. -/
theorem exists_merge {left right : Duration}
    (free : ∀ unit, left.get? unit = none ∨ right.get? unit = none) :
    ∃ merged, left.merge right = .ok merged := by
  rw [← sharedUnit?_eq_none_iff] at free
  rw [merge, free]
  exact ⟨_, rfl⟩

end Duration

end XmlRecords
