import XmlRecords.Proofs.Binary64.Whole
import XmlRecords.Proofs.Duration.Merging

/-! # The text of a duration identifies it

A magnitude is written as digits and the letter of its unit, and no space is among these. So the
text of a duration can be cut at its spaces into the parts that it was joined from, and each part
can only have come from one magnitude of one unit. The one exception is the duration with no unit
set, which is written like zero seconds (`Duration.text_identifies`).
-/

namespace XmlRecords

/-- The small letter behind a magnitude is the one that names its unit in a format. -/
theorem TimeUnit.toUpper_suffix (unit : TimeUnit) : unit.suffix.toUpper = unit.letter := by
  cases unit <;> rfl

/-- Units have different letters, small as well as capital. -/
theorem TimeUnit.suffix_injective : Function.Injective suffix := by
  intro unit other same
  have named : ofLetter? unit.letter = some unit := ofLetter?_eq_some_iff.mpr rfl
  rw [← toUpper_suffix, same, toUpper_suffix, ofLetter?_eq_some_iff.mpr rfl] at named
  exact (Option.some.inj named).symm

theorem Numeral.digits_injective : Function.Injective digits :=
  Function.LeftInverse.injective value_digits

namespace Duration

/-- A duration is told by the magnitudes that it has, each with its unit. -/
theorem setUnits_injective : Function.Injective setUnits := by
  intro left right same
  refine ext_some fun unit magnitude => ?_
  rw [← mem_setUnits, same, mem_setUnits]

theorem toList_pairText (pair : TimeUnit × UInt64) :
    (pairText pair).toList = Numeral.digits pair.2.toNat ++ [pair.1.suffix] := by
  rw [pairText, String.toList_push, Numeral.text, String.toList_ofList]

/-- The last character tells the unit, and the digits in front of it the magnitude. -/
theorem pairText_injective : Function.Injective pairText := by
  rintro ⟨unit, magnitude⟩ ⟨other, number⟩ same
  rw [← String.toList_inj, toList_pairText, toList_pairText, List.append_singleton_inj] at same
  obtain ⟨digits, letter⟩ := same
  obtain rfl : unit = other := TimeUnit.suffix_injective letter
  obtain rfl : magnitude = number := UInt64.toNat_inj.mp (Numeral.digits_injective digits)
  rfl

/-- A part is digits and a letter, none of which is a space. -/
theorem space_not_mem_pairText (pair : TimeUnit × UInt64) : ' ' ∉ (pairText pair).toList := by
  rw [toList_pairText, List.mem_append, List.mem_singleton]
  rintro (digit | letter)
  · exact absurd (Nat.isDigit_of_mem_toDigits (by decide) (by decide) digit) (by decide)
  · have apart : ∀ unit : TimeUnit, ' ' ≠ unit.suffix := by decide
    exact apart pair.1 letter

section Shown

variable {duration left right : Duration}

/-- Only one duration has no unit set. -/
theorem eq_unset_iff : duration = unset ↔ ∀ unit, duration.get? unit = none := by
  constructor
  · rintro rfl
    exact get?_unset
  · exact fun free => ext_get? fun unit => (free unit).trans (get?_unset unit).symm

theorem ne_unset_iff : duration ≠ unset ↔ ∃ unit, duration.get? unit ≠ none := by
  rw [Ne, eq_unset_iff, not_forall]

theorem isUnset_iff : duration.isUnset ↔ duration = unset := by
  simp only [isUnset, List.all_eq_true, Option.isNone_iff_eq_none, eq_unset_iff]
  exact ⟨fun free unit => free unit unit.mem_all, fun free unit _ => free unit⟩

/-- The duration whose set units make up the text: zero seconds if no unit is set. -/
def shown (duration : Duration) : Duration :=
  if duration.isUnset then single .seconds 0 else duration

theorem shown_of_ne_unset (set : duration ≠ unset) : duration.shown = duration :=
  if_neg fun free => set (isUnset_iff.mp free)

/-- What is shown has a part at least, since zero seconds stand in for nothing. -/
theorem setUnits_shown_ne_nil (duration : Duration) : duration.shown.setUnits ≠ [] := by
  by_cases free : duration = unset
  · subst free
    decide
  · rw [shown_of_ne_unset free]
    obtain ⟨unit, set⟩ := ne_unset_iff.mp free
    obtain ⟨magnitude, set⟩ := Option.ne_none_iff_exists'.mp set
    exact List.ne_nil_of_mem (mem_setUnits.mpr set)

theorem text_eq_intercalate (duration : Duration) :
    duration.text = " ".intercalate (duration.shown.setUnits.map pairText) := by
  rw [text, shown]
  cases duration.isUnset <;> rfl

/-- Cut at its spaces, a text falls into the parts for the set units. -/
theorem splitOn_text (duration : Duration) :
    duration.text.toList.splitOn ' ' =
      (duration.shown.setUnits.map pairText).map String.toList := by
  rw [text_eq_intercalate, String.toList_intercalate]
  refine List.splitOn_intercalate ' ' ?_ ?_
  · simp only [List.forall_mem_map]
    exact fun pair _ => space_not_mem_pairText pair
  · -- Without this a text of no parts would be cut like one of a single empty part.
    simp only [ne_eq, List.map_eq_nil_iff]
    exact setUnits_shown_ne_nil duration

/-- Durations have the same text exactly if the same units are written, with the same magnitudes. -/
theorem text_eq_text_iff : left.text = right.text ↔ left.shown = right.shown := by
  constructor
  · intro same
    have parts := (splitOn_text left).symm.trans (same ▸ splitOn_text right)
    have texts := List.map_injective_iff.mpr (fun _ _ => String.toList_inj.mp) parts
    exact setUnits_injective (List.map_injective_iff.mpr pairText_injective texts)
  · intro same
    rw [text_eq_intercalate, text_eq_intercalate, same]

/-- The text of a duration identifies it: two durations of the same text are equal, if each has some
unit set. There is just one duration with no unit set, and of all others only zero seconds has the
same text as that one. -/
theorem text_identifies :
    (∀ left right : Duration, (∃ unit, left.get? unit ≠ none) →
        (∃ unit, right.get? unit ≠ none) → left.text = right.text → left = right) ∧
      (∀ duration : Duration, (∀ unit, duration.get? unit = none) ↔ duration = unset) ∧
      ∀ other : Duration, other ≠ unset ∧ other.text = unset.text ↔ other = single .seconds 0 := by
  refine ⟨fun left right leftSet rightSet same => ?_, fun _ => eq_unset_iff.symm, fun other => ?_⟩
  · rw [← shown_of_ne_unset (ne_unset_iff.mpr leftSet),
      ← shown_of_ne_unset (ne_unset_iff.mpr rightSet)]
    exact text_eq_text_iff.mp same
  · constructor
    · rintro ⟨set, same⟩
      rw [← shown_of_ne_unset set]
      exact text_eq_text_iff.mp same
    · rintro rfl
      exact ⟨by decide, rfl⟩

/-- The greatest magnitude beside a zero, in a duration that has been merged and in one whose units
have been assigned in another order. -/
theorem text_identifies_merged :
    ∃ left right : Duration,
      (single .days 18446744073709551615).merge (single .minutes 0) = .ok left ∧
        ofPairs [(.minutes, 0), (.days, 18446744073709551615)] = .ok right ∧
        left.get? .minutes ≠ none ∧ right.get? .minutes ≠ none ∧
        left.text = "18446744073709551615d 0m" ∧ right.text = "18446744073709551615d 0m" ∧
        left = right := by
  let left : Duration := ⟨some 18446744073709551615, none, some 0, none⟩
  let right : Duration := (single .minutes 0).set .days 18446744073709551615
  have merged : (single .days 18446744073709551615).merge (single .minutes 0) = .ok left := rfl
  have assigned : ofPairs [(.minutes, 0), (.days, 18446744073709551615)] = .ok right := rfl
  have here : left.text = "18446744073709551615d 0m" := rfl
  have there : right.text = "18446744073709551615d 0m" := rfl
  have leftSet : left.get? .minutes ≠ none := by decide
  have rightSet : right.get? .minutes ≠ none := by decide
  exact ⟨left, right, merged, assigned, leftSet, rightSet, here, there,
    text_identifies.1 left right ⟨_, leftSet⟩ ⟨_, rightSet⟩ (here.trans there.symm)⟩

end Shown

end Duration

end XmlRecords
