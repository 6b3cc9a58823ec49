import Mathlib.Data.List.Basic
import XmlRecords.Proofs.Text.Reading
import XmlRecords.Xml.Expansion

/-! # Values of attributes

What stands between quotation marks is read up to the first of them. Where no entity can be
resolved, a value never gets longer when its references, line ends and tabs are resolved
(`length_le_of_expandValue`); it stays the same just if there is nothing to resolve in it
(`isUnresolved_of_expandValue`, `exists_segments_of_isUnresolved`).
-/

namespace XmlRecords

namespace Xml

/-- The character is not changed when a value is resolved. -/
def IsUnresolved (char : Char) : Prop :=
  char ∉ ['&', '\t', '\n', '\r']

instance (char : Char) : Decidable (IsUnresolved char) :=
  inferInstanceAs (Decidable (char ∉ _))

section Quotes

variable {text content rest : List Char}

/-- A quoted text ends before the first quotation mark like the one that it begins with. -/
theorem readQuoted_eq_some_iff :
    readQuoted ('"' :: text) = some (content, rest) ↔
      text = content ++ '"' :: rest ∧ '"' ∉ content := by
  rw [readQuoted, if_pos (by decide)]
  constructor
  · intro read
    have whole := append_span (· != '"') text
    have inside := of_mem_span (· != '"') text
    have mark := of_mem_head?_span (· != '"') text
    split at read
    · cases read
    · rename_i quote _ parts
      cases read
      rw [parts] at whole inside mark
      obtain rfl : quote = '"' := by simpa using mark quote rfl
      exact ⟨whole.symm, fun member => by simpa using inside _ member⟩
  · rintro ⟨rfl, inside⟩
    have row : ∀ char ∈ content, (char != '"') = true :=
      fun char member => bne_iff_ne.mpr fun same => inside (same ▸ member)
    rw [span_append row (forall_mem_head?_cons rfl)]

end Quotes

section Runs

theorem length_spacedRun_le (run : List Char) : (spacedRun run).length ≤ run.length := by
  fun_induction spacedRun run with
  | case1 => exact Nat.le_refl 0
  | case2 run ih =>
      simp only [List.length_cons]
      omega
  | case3 char run single ih =>
      simp only [List.length_cons]
      omega

theorem spacedRun_eq_self_iff {run : List Char} (plain : '&' ∉ run) :
    spacedRun run = run ↔ ∀ char ∈ run, IsUnresolved char := by
  fun_induction spacedRun run with
  | case1 => simp
  | case2 run ih => simp [IsUnresolved]
  | case3 char run single ih =>
      have other := List.ne_of_not_mem_cons plain
      have same : (if isSpace char = true then ' ' else char) = char ↔ IsUnresolved char := by
        by_cases space : char = ' '
        · subst space
          decide
        · simp [space, isSpace, IsUnresolved, other.symm, Ne.symm space, and_assoc]
      rw [List.cons.injEq, same, ih (List.not_mem_of_not_mem_cons plain), List.forall_mem_cons]

end Runs

section References

variable {text rest : List Char}

theorem suffix_of_readName {name : String} (read : readName text = some (name, rest)) :
    rest <:+ text := by
  unfold readName at read
  split at read
  · cases read
  · rename_i char text
    split at read
    · cases read
      exact ⟨_, append_span isNameChar (char :: text)⟩
    · cases read

theorem suffix_of_readCode {char : Char} (read : readCode text = some (char, rest)) :
    rest <:+ text := by
  unfold readCode at read
  split at read
  · obtain ⟨_, -, same⟩ := Option.map_eq_some_iff.mp read
    cases same
    exact List.IsSuffix.trans ⟨_, append_span Hexadecimal.isDigit _⟩ (List.suffix_cons 'x' _)
  · obtain ⟨_, -, same⟩ := Option.map_eq_some_iff.mp read
    cases same
    exact ⟨_, append_span Char.isDigit _⟩

/-- A reference ends with a semicolon. -/
theorem suffix_of_readReference {segment : Segment}
    (read : readReference text = some (segment, rest)) :
    ';' :: rest <:+ text ∧ ∀ chars, segment ≠ .run chars := by
  unfold readReference at read
  split at read
  all_goals
    simp only [Option.bind_eq_bind, Option.bind_eq_some_iff, Option.map_eq_some_iff,
      Option.pure_def, Prod.exists, Option.some.injEq, Prod.mk.injEq] at read
    obtain ⟨_, behind, ⟨_, _, begun, rfl, rfl⟩, _, ended, rfl, rfl⟩ := read
    obtain rfl := after?_eq_some_iff.mp ended
  · exact ⟨(suffix_of_readCode begun).trans (List.suffix_cons '#' _), nofun⟩
  · refine ⟨suffix_of_readName begun, fun chars => ?_⟩
    unfold Segment.ofName
    split <;> nofun

end References

section Expansion

variable {resolver : Resolver} {text chars : List Char} {parts : List Segment}
  {limit budget left : Nat}

/-- A value does not get longer, and it changes if there is anything in it to resolve. -/
theorem length_le_of_expandValue (none : ∀ name budget, resolver.chars name budget = none)
    (taken : segmentsWithin limit text = some parts)
    (expanded : expandValue resolver parts budget = some (chars, left)) :
    chars.length ≤ text.length ∧ (chars = text → ∀ char ∈ text, IsUnresolved char) := by
  fun_induction segmentsWithin limit text generalizing parts chars left with
  | case1 limit =>
      cases taken
      cases expanded
      exact ⟨Nat.le_refl 0, fun _ => List.forall_mem_nil _⟩
  | case2 text present => cases taken
  | case3 limit text ih =>
      simp only [Option.bind_eq_bind, Option.bind_eq_some_iff, Option.pure_def, Prod.exists,
        Option.some.injEq] at taken
      obtain ⟨segment, rest, read, others, taken, rfl⟩ := taken
      obtain ⟨suffix, other⟩ := suffix_of_readReference read
      have shorter := suffix.length_le
      cases segment with
      | run chars => exact absurd rfl (other chars)
      | reference char =>
          obtain ⟨_, -, behind⟩ := Option.bind_eq_some_iff.mp expanded
          obtain ⟨⟨resolved, _⟩, others, same⟩ := Option.bind_eq_some_iff.mp behind
          obtain ⟨rfl, rfl⟩ := Prod.mk.inj (Option.some.inj same)
          obtain ⟨bound, -⟩ := ih _ taken others
          simp only [List.length_cons] at shorter ⊢
          refine ⟨by omega, fun same => ?_⟩
          have long := congrArg List.length same
          simp only [List.length_cons] at long
          omega
      | entity name =>
          obtain ⟨_, resolved, -⟩ := Option.bind_eq_some_iff.mp expanded
          cases (none name budget).symm.trans resolved
  | case4 limit text present other run rest split ih =>
      simp only [Option.bind_eq_bind, Option.bind_eq_some_iff, Option.pure_def,
        Option.some.injEq] at taken
      obtain ⟨others, taken, rfl⟩ := taken
      obtain ⟨⟨resolved, _⟩, behind, same⟩ := Option.bind_eq_some_iff.mp expanded
      obtain ⟨rfl, rfl⟩ := Prod.mk.inj (Option.some.inj same)
      obtain ⟨bound, unresolved⟩ := ih taken behind
      have whole := append_span (· != '&') text
      have inside := of_mem_span (· != '&') text
      rw [split] at whole inside
      subst whole
      have runBound := length_spacedRun_le run
      simp only [List.length_append]
      refine ⟨by omega, fun same => List.forall_mem_append.mpr ?_⟩
      have lengths := congrArg List.length same
      simp only [List.length_append] at lengths
      obtain ⟨runSame, restSame⟩ := List.append_inj same (by omega)
      have plain : '&' ∉ run := fun member => by simpa using inside '&' member
      exact ⟨(spacedRun_eq_self_iff plain).mp runSame, unresolved restSame⟩

/-- A value in which there is nothing to resolve stands for itself. -/
theorem exists_segments_of_isUnresolved (unresolved : ∀ char ∈ text, IsUnresolved char) :
    ∃ parts, segments text = some parts ∧
      ∀ resolver budget, expandValue resolver parts budget = some (text, budget) := by
  cases text with
  | nil => exact ⟨[], rfl, fun _ _ => rfl⟩
  | cons char text =>
      have plain : '&' ∉ char :: text := fun member => unresolved '&' member (by decide)
      have row : ∀ other ∈ char :: text, (other != '&') = true :=
        fun other member => bne_iff_ne.mpr fun same => plain (same ▸ member)
      have whole : (char :: text).span (· != '&') = (char :: text, []) := by
        have ended : ∀ other ∈ ([] : List Char).head?, (other != '&') = false :=
          fun _ member => nomatch member
        rw [← span_append row ended, List.append_nil]
      have other : char ≠ '&' := fun same => plain (same ▸ List.mem_cons_self)
      refine ⟨[.run (char :: text)], ?_, fun resolver budget => ?_⟩
      · rw [segments, List.length_cons, segmentsWithin, whole]
        · simp only [segmentsWithin, Option.bind_eq_bind, Option.bind_some, Option.pure_def]
        · exact List.cons_ne_nil char text
        · exact fun _ same => other (List.cons.inj same).1
      · have resolved : expandValue resolver [.run (char :: text)] budget =
            some (spacedRun (char :: text) ++ [], budget) := rfl
        rw [resolved, List.append_nil, (spacedRun_eq_self_iff plain).mpr unresolved]

end Expansion

end Xml

end XmlRecords
