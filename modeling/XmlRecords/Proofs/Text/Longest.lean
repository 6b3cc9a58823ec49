import Mathlib.Computability.Language

/-! # Longest words

What a lenient reader takes is the longest word of a language that the text begins with. For a
language of two parts one behind the other, the longest word is put together from the longest
words of the parts, if no character of the first one can begin the second
(`IsLongest.append`). Readers that take one part after the other, and never give anything back,
are right for this reason.
-/

namespace XmlRecords

/-- The words of one character of a kind. -/
def oneOf (kind : Char → Bool) : Language Char :=
  fun word => ∃ char, kind char = true ∧ word = [char]

section OneOf

variable {kind : Char → Bool} {language : Language Char} {char : Char} {word : List Char}

theorem mem_oneOf_mul :
    word ∈ oneOf kind * language ↔
      ∃ char rest, kind char = true ∧ rest ∈ language ∧ word = char :: rest := by
  rw [Language.mem_mul]
  constructor
  · rintro ⟨_, ⟨char, holds, rfl⟩, rest, member, rfl⟩
    exact ⟨char, rest, holds, member, rfl⟩
  · rintro ⟨char, rest, holds, member, rfl⟩
    exact ⟨[char], ⟨char, holds, rfl⟩, rest, member, rfl⟩

theorem cons_mem_oneOf_mul :
    char :: word ∈ oneOf kind * language ↔ kind char = true ∧ word ∈ language := by
  rw [mem_oneOf_mul]
  constructor
  · rintro ⟨_, _, holds, member, same⟩
    cases same
    exact ⟨holds, member⟩
  · rintro ⟨holds, member⟩
    exact ⟨char, word, holds, member, rfl⟩

theorem nil_notMem_oneOf_mul : [] ∉ oneOf kind * language := by
  rw [mem_oneOf_mul]
  rintro ⟨_, _, _, _, same⟩
  cases same

theorem cons_mem_one_add : char :: word ∈ 1 + language ↔ char :: word ∈ language := by
  rw [Language.mem_add, Language.mem_one]
  exact or_iff_right (List.cons_ne_nil char word)

theorem nil_mem_one_add : [] ∈ 1 + language :=
  .inl rfl

end OneOf

section Mul

variable {first second : Language Char} {char : Char} {word : List Char}

theorem nil_notMem_mul (proper : [] ∉ first) : [] ∉ first * second := by
  intro member
  obtain ⟨front, inFirst, _, -, empty⟩ := Language.mem_mul.mp member
  rw [(List.append_eq_nil_iff.mp empty).1] at inFirst
  exact proper inFirst

/-- A word of two parts begins as its first part does, if this one is not empty. -/
theorem exists_cons_mem_of_mul (proper : [] ∉ first) (member : char :: word ∈ first * second) :
    ∃ rest, char :: rest ∈ first := by
  obtain ⟨front, inFirst, _, -, same⟩ := Language.mem_mul.mp member
  cases front with
  | nil => exact absurd inFirst proper
  | cons head front =>
      cases same
      exact ⟨front, inFirst⟩

end Mul

/-- Every character in the words of a language has a property. -/
def WrittenWith (property : Char → Prop) (language : Language Char) : Prop :=
  ∀ word ∈ language, ∀ char ∈ word, property char

namespace WrittenWith

variable {property : Char → Prop} {first second : Language Char}

theorem of_oneOf {kind : Char → Bool} (holds : ∀ char, kind char = true → property char) :
    WrittenWith property (oneOf kind) := by
  rintro _ ⟨char, ofKind, rfl⟩
  exact List.forall_mem_singleton.mpr (holds char ofKind)

theorem one_add (here : WrittenWith property first) : WrittenWith property (1 + first) := by
  intro word member
  rcases member with rfl | member
  · exact nofun
  · exact here word member

theorem add (here : WrittenWith property first) (there : WrittenWith property second) :
    WrittenWith property (first + second) := by
  intro word member
  rcases member with member | member
  · exact here word member
  · exact there word member

theorem mul (here : WrittenWith property first) (there : WrittenWith property second) :
    WrittenWith property (first * second) := by
  intro word member
  obtain ⟨front, inFirst, behind, inSecond, rfl⟩ := Language.mem_mul.mp member
  exact List.forall_mem_append.mpr ⟨here front inFirst, there behind inSecond⟩

end WrittenWith

/-- The word is the longest one of a language that the text begins with. -/
structure IsLongest (language : Language Char) (word text : List Char) : Prop where
  starts : word <+: text
  mem : word ∈ language
  longest : ∀ other ∈ language, other <+: text → other.length ≤ word.length

namespace IsLongest

variable {language first second : Language Char} {word other text rest : List Char} {char : Char}

/-- There is one longest word at most. -/
theorem eq (here : IsLongest language word text) (there : IsLongest language other text) :
    word = other :=
  have shorter := there.longest word here.mem here.starts
  (List.prefix_of_prefix_length_le here.starts there.starts shorter).eq_of_length
    (Nat.le_antisymm shorter (here.longest other there.mem there.starts))

theorem nil (member : [] ∈ language) (none : ∀ word ∈ language, word <+: text → word = []) :
    IsLongest language [] text where
  starts := List.nil_prefix
  mem := member
  longest := by
    intro other others starts
    rw [none other others starts]

/-- A character in front of the longest word makes it the longest one of the words that go on like
this behind the character. -/
theorem cons (here : IsLongest first word text) (member : char :: word ∈ second)
    (behind : ∀ other, char :: other ∈ second → other ∈ first) :
    IsLongest second (char :: word) (char :: text) where
  starts := List.cons_prefix_cons.mpr ⟨rfl, here.starts⟩
  mem := member
  longest := by
    intro other others starts
    cases other with
    | nil => exact Nat.zero_le _
    | cons head other =>
        obtain ⟨rfl, onward⟩ := List.cons_prefix_cons.mp starts
        exact Nat.succ_le_succ (here.longest other (behind other others) onward)

theorem of_nil (member : [] ∈ language) : IsLongest language [] [] :=
  .nil member fun _ _ starts => List.prefix_nil.mp starts

/-- What is allowed to be missing is there, if the longest word is not empty. -/
theorem of_one_add (here : IsLongest (1 + language) word text) (present : word ≠ []) :
    IsLongest language word text where
  starts := here.starts
  mem := here.mem.resolve_left present
  longest := fun other others => here.longest other (.inr others)

/-- If the longest word is empty, what is allowed to be missing is missing. -/
theorem not_prefix (here : IsLongest (1 + language) [] text) (proper : [] ∉ language) :
    ∀ other ∈ language, ¬other <+: text := by
  intro other others starts
  have empty := here.longest other (.inr others) starts
  rw [List.eq_nil_of_length_eq_zero (Nat.le_zero.mp empty)] at others
  exact proper others

section Marked

variable {kind : Char → Bool}

/-- What a mark announces is taken together with the mark. -/
theorem marked (here : IsLongest language word text) (holds : kind char = true) :
    IsLongest (1 + oneOf kind * language) (char :: word) (char :: text) := by
  apply here.cons (cons_mem_one_add.mpr (cons_mem_oneOf_mul.mpr ⟨holds, here.mem⟩))
  intro other member
  exact (cons_mem_oneOf_mul.mp (cons_mem_one_add.mp member)).2

/-- Nothing is taken without a mark, or if what the mark announces does not follow. -/
theorem unmarked (missing : kind char = true → ∀ other ∈ language, ¬other <+: text) :
    IsLongest (1 + oneOf kind * language) [] (char :: text) := by
  apply nil nil_mem_one_add
  intro other member starts
  cases other with
  | nil => rfl
  | cons head other =>
      obtain ⟨rfl, onward⟩ := List.cons_prefix_cons.mp starts
      obtain ⟨holds, others⟩ := cons_mem_oneOf_mul.mp (cons_mem_one_add.mp member)
      exact absurd onward (missing holds other others)

end Marked

section Append

variable (here : IsLongest first word (word ++ rest))
  (apart : ∀ char ∈ word, ∀ other, char :: other ∉ second)

include here apart

/-- A word of two parts at the begin of a text has the longest first part, or it ends before that
part does. -/
theorem split {front behind : List Char} (inFirst : front ∈ first) (inSecond : behind ∈ second)
    (starts : front ++ behind <+: word ++ rest) :
    front = word ∧ behind <+: rest ∨ behind = [] ∧ front.length ≤ word.length := by
  have frontStarts : front <+: word ++ rest := (List.prefix_append front behind).trans starts
  have shorter := here.longest front inFirst frontStarts
  obtain ⟨more, rfl⟩ := List.prefix_of_prefix_length_le frontStarts here.starts shorter
  rw [List.append_assoc, List.prefix_append_right_inj] at starts
  cases more with
  | nil => exact .inl ⟨(List.append_nil front).symm, starts⟩
  | cons char more =>
      cases behind with
      | nil => exact .inr ⟨rfl, shorter⟩
      | cons head behind =>
          obtain ⟨rfl, -⟩ := List.cons_prefix_cons.mp starts
          exact absurd inSecond
            (apart head (List.mem_append_right front List.mem_cons_self) behind)

/-- The longest words of two parts are the longest word of both, if no character of the first one
can begin the second. -/
theorem append {next : List Char} (behind : IsLongest second next rest) :
    IsLongest (first * second) (word ++ next) (word ++ rest) where
  starts := (List.prefix_append_right_inj word).mpr behind.starts
  mem := Language.append_mem_mul here.mem behind.mem
  longest := by
    intro other others starts
    obtain ⟨front, inFirst, other, inSecond, rfl⟩ := Language.mem_mul.mp others
    rw [List.length_append, List.length_append]
    rcases here.split apart inFirst inSecond starts with ⟨rfl, otherStarts⟩ | ⟨rfl, shorter⟩
    · exact Nat.add_le_add_left (behind.longest other inSecond otherStarts) _
    · exact Nat.add_le_add shorter (Nat.zero_le _)

/-- If the second part is missing behind the longest first one, there is no word of both. -/
theorem not_prefix_mul (missing : ∀ other ∈ second, ¬other <+: rest) (proper : [] ∉ second) :
    ∀ other ∈ first * second, ¬other <+: word ++ rest := by
  intro other others starts
  obtain ⟨front, inFirst, other, inSecond, rfl⟩ := Language.mem_mul.mp others
  rcases here.split apart inFirst inSecond starts with ⟨-, otherStarts⟩ | ⟨rfl, -⟩
  · exact missing other inSecond otherStarts
  · exact proper inSecond

end Append

end IsLongest

end XmlRecords
