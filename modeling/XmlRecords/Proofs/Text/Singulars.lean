import Mathlib.Data.List.Basic
import XmlRecords.Proofs.Text.Reading
import XmlRecords.Text.Singular

/-! # Singulars of singulars

The singular of a word is the word itself, comes from the list of irregular plurals, has another
ending, or is the word without its last `s` (`SingularForm`). Of such forms the singular is the form
itself, but for plurals: `people` is the singular of `peoples`, and a plural of its own. Names that
end in such a plural with an `s` behind it are inflected twice, first by the plain rule and then by
the list. Besides, only `alias`, the singular of `aliases`, ends as no other singular does
(`singular_singular_iff`).
-/

namespace XmlRecords

namespace Text

/-- The word, in small letters, does not end in `s`, or it ends like words in `s` that are no
plurals. -/
def EndsLikeSingular (word : List Char) : Prop :=
  word.getLast? ≠ some 's' ∨ keptEndings.any (endsIn word) = true

instance (word : List Char) : Decidable (EndsLikeSingular word) :=
  inferInstanceAs (Decidable (_ ∨ _))

/-- A plural that follows no rule and does not end in `s`, in letters of either case, with an `s`
behind it. -/
def IsDoubledPlural (word : List Char) : Prop :=
  word.getLast? = some 's' ∧ ∃ rule ∈ irregular, rule.1.toList.getLast? ≠ some 's' ∧
    word.dropLast.map Char.toLower = rule.1.toList

instance (word : List Char) : Decidable (IsDoubledPlural word) :=
  inferInstanceAs (Decidable (_ ∧ _))

/-- Neither text ends in the other. -/
def Apart (first second : String) : Prop :=
  ¬first.toList <:+ second.toList ∧ ¬second.toList <:+ first.toList

instance (first second : String) : Decidable (Apart first second) :=
  inferInstanceAs (Decidable (_ ∧ _))

section Tables

/-- All rules are for words in `es`. -/
theorem suffix_endings : ∀ rule ∈ endings, ['e', 's'] <:+ rule.1.toList := by
  decide +kernel

theorem suffix_keptEndings : ∀ ending ∈ keptEndings,
    ['s'] <:+ ending.toList ∧ ending.toList.length = 2 ∧ ending.toList ≠ ['e', 's'] := by
  decide +kernel

/-- But for `alias`, the endings of singulars are not those of plurals, nor of irregular ones. -/
theorem endsLikeSingular_endings : ∀ rule ∈ endings, rule.1 ≠ "aliases" →
    EndsLikeSingular rule.2.toList ∧ rule.2.toList ≠ [] ∧
      rule.2.toList.map Char.toLower = rule.2.toList ∧
        ∀ other ∈ irregular, ¬rule.2.toList <:+ other.1.toList := by
  decide +kernel

/-- An irregular singular stays as it is. -/
theorem singularWord_irregular : ∀ rule ∈ irregular,
    singularWord rule.2.toList = rule.2.toList := by
  decide +kernel

theorem find_irregular : ∀ rule ∈ irregular,
    uncountable.contains rule.1 = false ∧
      irregular.find? (fun other => other.1 = rule.1) = some rule ∧
        rule.2.toList.map Char.toLower ≠ rule.1.toList := by
  decide +kernel

/-- No rule but the last one fits a plural without `s` that has got one. -/
theorem find_doubled : ∀ rule ∈ irregular, rule.1.toList.getLast? ≠ some 's' →
    uncountable.contains (String.ofList (rule.1.toList ++ ['s'])) = false ∧
      irregular.find? (fun other => other.1 = String.ofList (rule.1.toList ++ ['s'])) = none ∧
        endings.find? (fun other => endsIn (rule.1.toList ++ ['s']) other.1) = none ∧
          keptEndings.any (endsIn (rule.1.toList ++ ['s'])) = false ∧ rule.1.toList ≠ [] := by
  decide +kernel

/-- No table but the rule for it, and none before that, has to do with `aliases`. -/
theorem apart_aliases :
    ∀ other ∈ uncountable ++ irregular.map Prod.fst ++ ["quizzes", "statuses"],
      Apart other "aliases" := by
  decide +kernel

/-- No table has to do with `alias`, not even the one of endings in `s` that are kept. -/
theorem apart_alias :
    ∀ other ∈ uncountable ++ irregular.map Prod.fst ++ (endings.map Prod.fst ++ keptEndings),
      Apart other "alias" := by
  decide +kernel

theorem underscore_notMem_tables :
    ∀ rule ∈ irregular ++ endings, ∀ char ∈ rule.2.toList, (char != '_') = true := by
  have checked : (irregular ++ endings).all fun rule => rule.2.toList.all (· != '_') := by
    decide +kernel
  exact fun rule member => List.all_eq_true.mp (List.all_eq_true.mp checked rule member)

end Tables

/-- What a singular is made of. -/
inductive SingularForm (word : List Char) : List Char → Prop
  | same : SingularForm word word
  | irregular {rule : String × String} (member : rule ∈ irregular) :
      SingularForm word rule.2.toList
  | ending {rule : String × String} (member : rule ∈ endings)
      (fits : endsIn (word.map Char.toLower) rule.1 = true) (count : Nat) :
      SingularForm word (word.take count ++ rule.2.toList)
  | dropped {stem : List Char} (whole : word = stem ++ ['s'])
      (plural : ¬EndsLikeSingular (word.map Char.toLower)) : SingularForm word stem

section Words

variable {word : List Char} {ending : String}

/-- The first rule that fits is applied, or else a final `s` dropped unless the ending is kept. -/
theorem singularByEnding_eq (word : List Char) :
    singularByEnding word =
      (endings.find? fun rule => endsIn (word.map Char.toLower) rule.1).elim
        (if keptEndings.any (endsIn (word.map Char.toLower)) then word else withoutFinalS word)
        fun rule => word.take (word.length - rule.1.length) ++ rule.2.toList := by
  unfold singularByEnding
  dsimp only
  split
  · rename_i found
    rw [found]
    rfl
  · rename_i missing
    rw [missing]
    rfl

theorem singularWord_eq (word : List Char) :
    singularWord word =
      if uncountable.contains (String.ofList (word.map Char.toLower)) then
        word
      else
        (irregular.find? fun rule => rule.1 = String.ofList (word.map Char.toLower)).elim
          (singularByEnding word) fun rule => rule.2.toList := by
  unfold singularWord
  dsimp only
  refine congrArg (ite _ word) ?_
  split
  · rename_i found
    rw [found]
    rfl
  · rename_i missing
    rw [missing]
    rfl

theorem endsIn_iff : endsIn word ending = true ↔ ending.toList <:+ word :=
  List.isSuffixOf_iff_suffix

theorem getLast?_of_suffix {char : Char} (front : List Char) (suffix : front ++ [char] <:+ word) :
    word.getLast? = some char := by
  obtain ⟨before, rfl⟩ := suffix
  rw [← List.append_assoc, List.getLast?_concat]

theorem EndsLikeSingular.append (kept : EndsLikeSingular word) (present : word ≠ [])
    (front : List Char) : EndsLikeSingular (front ++ word) := by
  rcases kept with final | kept
  · exact .inl (by rwa [List.getLast?_append_of_ne_nil front present])
  · obtain ⟨ending, inKept, fits⟩ := List.any_eq_true.mp kept
    have fitsBehind := (endsIn_iff.mp fits).trans (List.suffix_append front word)
    exact .inr (List.any_eq_true.mpr ⟨ending, inKept, endsIn_iff.mpr fitsBehind⟩)

/-- Words in `ss` are no plurals. -/
theorem endsLikeSingular_concat (final : word.getLast? = some 's') :
    EndsLikeSingular (word ++ ['s']) := by
  have whole := List.dropLast_append_getLast? 's' final
  refine .inr (List.any_eq_true.mpr ⟨"ss", by decide, endsIn_iff.mpr ⟨word.dropLast, ?_⟩⟩)
  rw [← whole, List.dropLast_concat, List.append_assoc]
  rfl

/-- No rule is for a word that ends like a singular. -/
theorem find?_endings_eq_none (kept : EndsLikeSingular word) :
    endings.find? (fun rule => endsIn word rule.1) = none := by
  refine List.find?_eq_none.mpr fun rule member fits => ?_
  have plural := (suffix_endings rule member).trans (endsIn_iff.mp fits)
  rcases kept with final | kept
  · exact final (getLast?_of_suffix ['e'] plural)
  · obtain ⟨ending, inKept, fits⟩ := List.any_eq_true.mp kept
    obtain ⟨-, long, different⟩ := suffix_keptEndings ending inKept
    have inside := List.suffix_of_suffix_length_le (endsIn_iff.mp fits) plural (Nat.le_of_eq long)
    exact different (inside.eq_of_length long)

theorem withoutFinalS_eq_self (final : (word.map Char.toLower).getLast? ≠ some 's') :
    withoutFinalS word = word := by
  refine if_neg fun long => final ?_
  rw [List.getLast?_map, of_decide_eq_true (Bool.and_eq_true_iff.mp long).1]
  rfl

theorem singularByEnding_eq_self (kept : EndsLikeSingular (word.map Char.toLower)) :
    singularByEnding word = word := by
  rw [singularByEnding_eq, find?_endings_eq_none kept, Option.elim_none]
  split
  · rfl
  · rename_i unkept
    exact withoutFinalS_eq_self (kept.resolve_right unkept)

/-- A word stays as it is if no rule is for its ending and it is no irregular plural. -/
theorem singularWord_eq_self (kept : EndsLikeSingular (word.map Char.toLower))
    (regular : ∀ rule ∈ irregular, word.map Char.toLower ≠ rule.1.toList) :
    singularWord word = word := by
  have none : irregular.find? (fun rule => rule.1 = String.ofList (word.map Char.toLower)) =
      none := by
    refine List.find?_eq_none.mpr fun rule member same => regular rule member ?_
    rw [of_decide_eq_true same, String.toList_ofList]
  rw [singularWord_eq, none]
  split
  · rfl
  · exact singularByEnding_eq_self kept

theorem singularForm_withoutFinalS (unkept : ¬keptEndings.any (endsIn (word.map Char.toLower))) :
    SingularForm word (withoutFinalS word) := by
  unfold withoutFinalS
  split
  · rename_i long
    have final := of_decide_eq_true (Bool.and_eq_true_iff.mp long).1
    refine .dropped (List.dropLast_append_getLast? 's' final).symm ?_
    rintro (other | kept)
    · refine other ?_
      rw [List.getLast?_map, final]
      rfl
    · exact unkept kept
  · exact .same

/-- A regular singular is the word itself, or the word with another ending or without its `s`. -/
theorem singularForm_byEnding (word : List Char) : SingularForm word (singularByEnding word) := by
  rw [singularByEnding_eq]
  cases found : endings.find? fun rule => endsIn (word.map Char.toLower) rule.1 with
  | some rule =>
      have fits : endsIn (word.map Char.toLower) rule.1 = true := by
        simpa only using List.find?_some found
      exact .ending (List.mem_of_find?_eq_some found) fits _
  | none =>
      rw [Option.elim_none]
      split
      · exact .same
      · rename_i unkept
        exact singularForm_withoutFinalS unkept

theorem singularForm (word : List Char) : SingularForm word (singularWord word) := by
  rw [singularWord_eq]
  split
  · exact .same
  · cases found : irregular.find? fun rule => rule.1 = String.ofList (word.map Char.toLower) with
    | some rule => exact .irregular (List.mem_of_find?_eq_some found)
    | none => exact singularForm_byEnding word

/-- The singular of a word is its own singular, unless the word is a doubled plural. -/
theorem singularWord_singularWord (other : endsIn (word.map Char.toLower) "aliases" = false)
    (single : ¬IsDoubledPlural word) :
    singularWord (singularWord word) = singularWord word := by
  have form := singularForm word
  generalize here : singularWord word = singular at form ⊢
  cases form with
  | same => exact here
  | irregular member => exact singularWord_irregular _ member
  | @ending rule member fits count =>
      have known : rule.1 ≠ "aliases" := fun same => by rw [same, other] at fits; cases fits
      obtain ⟨kept, present, small, regular⟩ := endsLikeSingular_endings rule member known
      refine singularWord_eq_self ?_ fun irregular inTable same => ?_
      · rw [List.map_append, small]
        exact EndsLikeSingular.append kept present _
      · rw [List.map_append, small] at same
        exact regular irregular inTable (same ▸ List.suffix_append _ _)
  | dropped whole plural =>
      subst whole
      have final : (singular.map Char.toLower).getLast? ≠ some 's' := by
        rw [List.map_append] at plural
        exact mt endsLikeSingular_concat plural
      refine singularWord_eq_self (.inl final) fun rule member same => single ?_
      refine ⟨List.getLast?_concat, rule, member, same ▸ final, ?_⟩
      rw [List.dropLast_concat, same]

/-- A doubled plural loses its `s`, and then the plural is taken for what it is. -/
theorem singularWord_doubled (doubled : IsDoubledPlural word) :
    ∃ rule ∈ irregular, word.dropLast.map Char.toLower = rule.1.toList ∧
      singularWord word = word.dropLast ∧ singularWord word.dropLast = rule.2.toList := by
  obtain ⟨final, rule, member, other, plural⟩ := doubled
  have whole := List.dropLast_append_getLast? 's' final
  generalize word.dropLast = stem at plural whole ⊢
  obtain ⟨countable, none, noEnding, unkept, present⟩ := find_doubled rule member other
  obtain ⟨stemCountable, found, _⟩ := find_irregular rule member
  have small : word.map Char.toLower = rule.1.toList ++ ['s'] := by
    rw [← whole, List.map_append, plural]
    rfl
  refine ⟨rule, member, plural, ?_, ?_⟩
  · rw [singularWord_eq, small, countable, none, singularByEnding_eq, small, noEnding, unkept]
    change withoutFinalS word = stem
    have long : stem ≠ [] := by
      rintro rfl
      exact present plural.symm
    rw [← whole, withoutFinalS, List.getLast?_concat, List.length_append, List.dropLast_concat]
    exact if_pos (by simpa using List.length_pos_iff.mpr long)
  · rw [singularWord_eq, plural, String.ofList_toList, stemCountable, found]
    rfl

/-- A word that ends in a text ends in no other one, if these are apart. -/
theorem Apart.endsIn_eq_false {other : String} (apart : Apart other ending)
    (fits : endsIn word ending = true) : endsIn word other = false := by
  refine Bool.eq_false_iff.mpr fun otherFits => ?_
  rcases List.suffix_or_suffix_of_suffix (endsIn_iff.mp otherFits) (endsIn_iff.mp fits) with
    inside | inside
  · exact apart.1 inside
  · exact apart.2 inside

/-- A word that is in none of the lists is inflected by its ending. -/
theorem singularWord_eq_byEnding (fits : endsIn (word.map Char.toLower) ending = true)
    (apart : ∀ other ∈ uncountable ++ irregular.map Prod.fst, Apart other ending) :
    singularWord word = singularByEnding word := by
  have unlike : ∀ other ∈ uncountable ++ irregular.map Prod.fst,
      other ≠ String.ofList (word.map Char.toLower) := by
    rintro _ member rfl
    have different := (apart _ member).endsIn_eq_false fits
    rw [← Bool.not_eq_true, endsIn_iff, String.toList_ofList] at different
    exact different (List.suffix_refl _)
  have countable : uncountable.contains (String.ofList (word.map Char.toLower)) = false := by
    refine Bool.eq_false_iff.mpr fun member => ?_
    exact unlike _ (List.mem_append_left _ (List.contains_iff_mem.mp member)) rfl
  have none : irregular.find? (fun rule => rule.1 = String.ofList (word.map Char.toLower)) =
      none := by
    refine List.find?_eq_none.mpr fun rule member same => ?_
    have listed : rule.1 ∈ irregular.map Prod.fst := List.mem_map_of_mem member
    exact unlike rule.1 (List.mem_append_right _ listed) (of_decide_eq_true same)
  rw [singularWord_eq, countable, none]
  rfl

/-- Of all rules, the one for `aliases` is the first that fits such a word. -/
theorem singularWord_aliases (fits : endsIn (word.map Char.toLower) "aliases" = true) :
    singularWord word = word.take (word.length - "aliases".length) ++ "alias".toList := by
  have before (other : String) (member : other ∈ ["quizzes", "statuses"]) :
      endsIn (word.map Char.toLower) other = false :=
    (apart_aliases other (List.mem_append_right _ member)).endsIn_eq_false fits
  have found : endings.find? (fun rule => endsIn (word.map Char.toLower) rule.1) =
      some ("aliases", "alias") := by
    rw [endings, List.find?_cons, before "quizzes" (by decide), List.find?_cons,
      before "statuses" (by decide), List.find?_cons, fits]
  have lists := fun other member => apart_aliases other (List.mem_append_left _ member)
  rw [singularWord_eq_byEnding fits lists, singularByEnding_eq, found, Option.elim_some]

/-- To the rules `alias` is the plural of `alia`. -/
theorem singularWord_alias (front : List Char) :
    singularWord (front ++ "alias".toList) = front ++ "alia".toList := by
  have small : (front ++ "alias".toList).map Char.toLower =
      front.map Char.toLower ++ "alias".toList :=
    List.map_append
  have fits : endsIn ((front ++ "alias".toList).map Char.toLower) "alias" = true := by
    rw [small]
    exact endsIn_iff.mpr (List.suffix_append _ _)
  have unlike (other : String) (member : other ∈ endings.map Prod.fst ++ keptEndings) :
      endsIn ((front ++ "alias".toList).map Char.toLower) other = false :=
    (apart_alias other (List.mem_append_right _ member)).endsIn_eq_false fits
  have none : endings.find? (fun rule =>
      endsIn ((front ++ "alias".toList).map Char.toLower) rule.1) = none := by
    refine List.find?_eq_none.mpr fun rule member => Bool.eq_false_iff.mp (unlike rule.1 ?_)
    exact List.mem_append_left _ (List.mem_map_of_mem member)
  have unkept : ¬keptEndings.any (endsIn ((front ++ "alias".toList).map Char.toLower)) = true := by
    refine Bool.eq_false_iff.mp (List.any_eq_false.mpr fun other member => ?_)
    exact Bool.eq_false_iff.mp (unlike other (List.mem_append_right _ member))
  have lists := fun other member => apart_alias other (List.mem_append_left _ member)
  rw [singularWord_eq_byEnding fits lists, singularByEnding_eq, none, Option.elim_none,
    if_neg unkept]
  have cut : front ++ "alias".toList = front ++ "alia".toList ++ ['s'] := by
    rw [List.append_assoc]
    rfl
  rw [cut, withoutFinalS, List.getLast?_concat, List.dropLast_concat]
  refine if_pos ?_
  simp

/-- Taking singulars changes nothing in a word a second time, but for doubled plurals, and for words
that end in `aliases`. -/
theorem singularWord_singularWord_iff :
    singularWord (singularWord word) = singularWord word ↔
      ¬IsDoubledPlural word ∧ endsIn (word.map Char.toLower) "aliases" = false := by
  constructor
  · intro same
    refine ⟨fun doubled => ?_, Bool.eq_false_iff.mpr fun fits => ?_⟩
    · obtain ⟨rule, member, plural, once, again⟩ := singularWord_doubled doubled
      obtain ⟨_, _, different⟩ := find_irregular rule member
      rw [once, again] at same
      exact different (same ▸ plural)
    · rw [singularWord_aliases fits, singularWord_alias, List.append_cancel_left_eq] at same
      exact absurd same (by decide)
  · rintro ⟨single, other⟩
    exact singularWord_singularWord other single

end Words

section Names

variable {front last : List Char}

/-- Behind the last underscore there is none. -/
theorem underscore_notMem_last (name : List Char) :
    ∀ char ∈ (splitLastWord name).2, (char != '_') = true := by
  intro char member
  exact of_mem_span (fun char => char != '_') name.reverse char (List.mem_reverse.mp member)

/-- The front of a name ends with the last underscore, so that any other word behind it is the last
one again. -/
theorem splitLastWord_replaced (name : List Char) (inside : ∀ char ∈ last, (char != '_') = true) :
    splitLastWord ((splitLastWord name).1 ++ last) = ((splitLastWord name).1, last) := by
  have ends := of_mem_head?_span (fun char => char != '_') name.reverse
  have row : ∀ char ∈ last.reverse, (char != '_') = true :=
    fun char member => inside char (List.mem_reverse.mp member)
  rw [splitLastWord, splitLastWord, List.reverse_append, List.reverse_reverse,
    span_append row ends]
  simp only [List.reverse_reverse]

theorem underscore_notMem_singularWord {word : List Char}
    (inside : ∀ char ∈ word, (char != '_') = true) :
    ∀ char ∈ singularWord word, (char != '_') = true := by
  have form := singularForm word
  generalize singularWord word = singular at form ⊢
  cases form with
  | same => exact inside
  | irregular member =>
      exact underscore_notMem_tables _ (List.mem_append_left endings member)
  | @ending rule member fits count =>
      refine List.forall_mem_append.mpr ⟨fun char taken => inside char (List.mem_of_mem_take taken),
        underscore_notMem_tables rule (List.mem_append_right irregular member)⟩
  | dropped whole plural =>
      subst whole
      exact (List.forall_mem_append.mp inside).1

/-- The singular of the singular of a name is made in its last word again. -/
theorem singular_singular (name : String) :
    singular (singular name) = String.ofList ((splitLastWord name.toList).1 ++
      singularWord (singularWord (splitLastWord name.toList).2)) := by
  have inside := underscore_notMem_singularWord (underscore_notMem_last name.toList)
  simp only [singular, String.toList_ofList, splitLastWord_replaced name.toList inside]

/-- Taking singulars changes nothing a second time, but for a name that ends in a doubled plural, or
in `aliases`. The singular of a name with a doubled plural ends in that irregular plural, and the
singular of this singular in the singular that the list of irregular plurals has for it. -/
theorem singular_singular_iff (name : String) :
    let front := (splitLastWord name.toList).1
    let last := (splitLastWord name.toList).2
    (singular (singular name) = singular name ↔
      ¬IsDoubledPlural last ∧ endsIn (last.map Char.toLower) "aliases" = false) ∧
    (IsDoubledPlural last → ∃ rule ∈ irregular,
      last.dropLast.map Char.toLower = rule.1.toList ∧
        singular name = String.ofList (front ++ last.dropLast) ∧
        singular (singular name) = String.ofList (front ++ rule.2.toList)) := by
  intro front last
  have once : singular name = String.ofList (front ++ singularWord last) := rfl
  have again : singular (singular name) =
      String.ofList (front ++ singularWord (singularWord last)) := singular_singular name
  constructor
  · rw [again, once, String.ofList_inj, List.append_cancel_left_eq]
    exact singularWord_singularWord_iff
  · intro doubled
    obtain ⟨rule, member, plural, dropped, taken⟩ := singularWord_doubled doubled
    rw [dropped] at once again
    rw [taken] at again
    exact ⟨rule, member, plural, once, again⟩

/-- The singular `old_status` of `old_statuses` still ends in `s`, and is left as it is, while
`Peoples` is a doubled plural. -/
theorem singular_singular_iff_peoples :
    singular (singular "old_statuses") = singular "old_statuses" ∧
      IsDoubledPlural (splitLastWord "old_Peoples".toList).2 ∧
        ∃ rule ∈ irregular, "People".toList.map Char.toLower = rule.1.toList ∧
          singular "old_Peoples" = String.ofList ("old_".toList ++ "People".toList) ∧
          singular (singular "old_Peoples") = String.ofList ("old_".toList ++ rule.2.toList) := by
  obtain ⟨same, _⟩ := singular_singular_iff "old_statuses"
  obtain ⟨_, twice⟩ := singular_singular_iff "old_Peoples"
  have doubled : IsDoubledPlural (splitLastWord "old_Peoples".toList).2 := by decide +kernel
  exact ⟨same.mpr (by decide +kernel), doubled, twice doubled⟩

/-- The singular of `peoples` is `people`, and that of `people` is `person`. -/
theorem singular_singular_peoples :
    singular "peoples" = "people" ∧ singular (singular "peoples") = "person" ∧
      singular (singular "peoples") ≠ singular "peoples" := by
  decide +kernel

end Names

end Text

end XmlRecords
