import XmlRecords.Proofs.Text.Reading
import XmlRecords.XPath.Function

/-! # Texts with their words separated by one space each

What the words of a text are is said by `Text.HasWords`, and every text has exactly one list of them
(`Text.hasWords_iff`). Joined by spaces, these words are a text of the same words. It has no white
space but single spaces inside (`Text.IsSpaced`), and a text of this form is joined from its own
words again. So the function that normalizes space takes each text to one representative of all
texts with the same words (`XPath.normalize_space_joins_words`).
-/

namespace XmlRecords

namespace Text

section Words

/-- The text consists of these words, with white space between them, and perhaps before and behind
them. Each word ends with the text or before white space. -/
inductive HasWords : List Char → List (List Char) → Prop
  | blank {row : List Char} (blanks : ∀ char ∈ row, isBlank char = true) : HasWords row []
  | word {front word rest : List Char} {words : List (List Char)}
      (blanks : ∀ char ∈ front, isBlank char = true) (present : word ≠ [])
      (solid : ∀ char ∈ word, isBlank char = false)
      (ends : ∀ char ∈ rest.head?, isBlank char = true) (onward : HasWords rest words) :
      HasWords (front ++ (word ++ rest)) (word :: words)

variable {word row rest text : List Char} {words : List (List Char)}

/-- White space in front of a text does not change its words. -/
theorem HasWords.cons_blank {char : Char} (blank : isBlank char = true)
    (has : HasWords text words) : HasWords (char :: text) words := by
  cases has with
  | blank blanks => exact .blank (List.forall_mem_cons.mpr ⟨blank, blanks⟩)
  | word blanks present solid ends onward =>
      rw [← List.cons_append]
      exact .word (List.forall_mem_cons.mpr ⟨blank, blanks⟩) present solid ends onward

/-- A text that begins with a word. -/
theorem HasWords.begin (present : word ≠ []) (solid : ∀ char ∈ word, isBlank char = false)
    (ends : ∀ char ∈ rest.head?, isBlank char = true) (onward : HasWords rest words) :
    HasWords (word ++ rest) (word :: words) := by
  rw [← List.nil_append (word ++ rest)]
  exact .word (List.forall_mem_nil _) present solid ends onward

theorem HasWords.single (present : word ≠ []) (solid : ∀ char ∈ word, isBlank char = false) :
    HasWords word [word] := by
  have whole : HasWords (word ++ []) [word] :=
    .begin present solid nofun (.blank (List.forall_mem_nil _))
  rwa [List.append_nil] at whole

/-- White space in front of a word is passed over. -/
theorem wordsFrom_blanks (blanks : ∀ char ∈ row, isBlank char = true) (rest : List Char) :
    wordsFrom [] (row ++ rest) = wordsFrom [] rest := by
  induction row with
  | nil => rfl
  | cons char row ih =>
      rw [List.forall_mem_cons] at blanks
      rw [List.cons_append, wordsFrom, if_pos blanks.1]
      exact ih blanks.2

/-- Other characters are added to the word that has begun. -/
theorem wordsFrom_solid (solid : ∀ char ∈ row, isBlank char = false) (word rest : List Char) :
    wordsFrom word (row ++ rest) = wordsFrom (word ++ row) rest := by
  induction row generalizing word with
  | nil => rw [List.append_nil, List.nil_append]
  | cons char row ih =>
      rw [List.forall_mem_cons] at solid
      rw [List.cons_append, wordsFrom, if_neg (ne_true_of_eq_false solid.1), ih solid.2,
        List.append_assoc, List.singleton_append]

/-- A word that has been begun is finished where the text ends or white space comes. -/
theorem wordsFrom_end (present : word ≠ []) (ends : ∀ char ∈ rest.head?, isBlank char = true) :
    wordsFrom word rest = word :: wordsFrom [] rest := by
  have begun : word.isEmpty = false := List.isEmpty_eq_false_iff.mpr present
  cases rest with
  | nil => rw [wordsFrom, begun]; rfl
  | cons char rest =>
      rw [wordsFrom, wordsFrom, if_pos (ends char rfl), if_pos (ends char rfl), begun]
      rfl

/-- A text has its words in one way only, by induction on how it is made up of them. -/
theorem HasWords.words_eq (has : HasWords text words) : Text.words text = words := by
  induction has with
  | @blank row blanks =>
      have none := wordsFrom_blanks blanks []
      rw [List.append_nil] at none
      exact none
  | @word front word rest words blanks present solid ends onward ih =>
      rw [Text.words, wordsFrom_blanks blanks, wordsFrom_solid solid, List.nil_append,
        wordsFrom_end present ends]
      exact congrArg (word :: ·) ih

/-- The words that are found behind an unfinished word, with that word in front. -/
theorem hasWords_wordsFrom (solid : ∀ char ∈ word, isBlank char = false) :
    HasWords (word ++ text) (wordsFrom word text) := by
  induction text generalizing word with
  | nil =>
      rw [wordsFrom]
      cases word with
      | nil => exact .blank (List.forall_mem_nil _)
      | cons first others =>
          rw [List.append_nil]
          exact .single (List.cons_ne_nil first others) solid
  | cons char text ih =>
      rw [wordsFrom]
      by_cases blank : isBlank char = true
      · rw [if_pos blank]
        have onward : HasWords (char :: text) (wordsFrom [] text) :=
          (ih (List.forall_mem_nil _)).cons_blank blank
        cases word with
        | nil => exact onward
        | cons first others =>
            exact .begin (List.cons_ne_nil first others) solid (forall_mem_head?_cons blank) onward
      · rw [if_neg blank, List.append_cons]
        refine ih (List.forall_mem_append.mpr ⟨solid, ?_⟩)
        exact List.forall_mem_singleton.mpr (Bool.eq_false_iff.mpr blank)

/-- A text has one list of words. -/
theorem hasWords_iff : HasWords text words ↔ Text.words text = words := by
  constructor
  · exact HasWords.words_eq
  · rintro rfl
    exact hasWords_wordsFrom (List.forall_mem_nil _)

/-- A word is not empty, and no white space is in it. -/
theorem HasWords.of_mem (has : HasWords text words) :
    ∀ word ∈ words, word ≠ [] ∧ ∀ char ∈ word, isBlank char = false := by
  induction has with
  | blank blanks => exact List.forall_mem_nil _
  | word blanks present solid ends onward ih =>
      exact List.forall_mem_cons.mpr ⟨⟨present, solid⟩, ih⟩

end Words

section Joining

variable {text : List Char} {words : List (List Char)}

/-- The only white space in the text are spaces, and each of them stands between two characters that
are no white space. -/
def IsSpaced (text : List Char) : Prop :=
  ∀ before char after, text = before ++ char :: after → isBlank char = true →
    char = ' ' ∧ (∃ last ∈ before.getLast?, isBlank last = false) ∧
      ∃ next ∈ after.head?, isBlank next = false

theorem joined_cons_cons (word next : List Char) (words : List (List Char)) :
    [' '].intercalate (word :: next :: words) =
      word ++ ' ' :: [' '].intercalate (next :: words) := by
  rw [List.intercalate_cons_cons, List.append_assoc, List.singleton_append]

/-- Words joined by spaces are the words of the text that they make up. -/
theorem hasWords_joined
    (proper : ∀ word ∈ words, word ≠ [] ∧ ∀ char ∈ word, isBlank char = false) :
    HasWords ([' '].intercalate words) words := by
  induction words with
  | nil => exact .blank (List.forall_mem_nil _)
  | cons word words ih =>
      obtain ⟨⟨present, solid⟩, others⟩ := List.forall_mem_cons.mp proper
      cases words with
      | nil =>
          rw [List.intercalate_singleton]
          exact .single present solid
      | cons next words =>
          rw [joined_cons_cons]
          exact .begin present solid (forall_mem_head?_cons rfl) ((ih others).cons_blank rfl)

/-- Joined words begin with the first one. -/
theorem exists_head?_joined {next : List Char}
    (proper : next ≠ [] ∧ ∀ char ∈ next, isBlank char = false) (words : List (List Char)) :
    ∃ char ∈ ([' '].intercalate (next :: words)).head?, isBlank char = false := by
  obtain ⟨present, solid⟩ := proper
  obtain ⟨first, others, rfl⟩ := List.exists_cons_of_ne_nil present
  refine ⟨first, ?_, solid first List.mem_cons_self⟩
  cases words with
  | nil => rw [List.intercalate_singleton]; rfl
  | cons word words => rw [joined_cons_cons]; rfl

theorem isSpaced_of_solid (solid : ∀ char ∈ text, isBlank char = false) : IsSpaced text := by
  intro before char after split blank
  have inside := solid char (by rw [split]; simp)
  exact absurd (inside.symm.trans blank) Bool.false_ne_true

/-- A space can be put behind a word and before a text that does not begin with white space. -/
theorem IsSpaced.word_append {word : List Char} (present : word ≠ [])
    (solid : ∀ char ∈ word, isBlank char = false) (spaced : IsSpaced text)
    (opens : ∃ next ∈ text.head?, isBlank next = false) : IsSpaced (word ++ ' ' :: text) := by
  intro before char after split blank
  have lastOf (row : List Char) (final : row ≠ []) : row.getLast? = some (row.getLast final) :=
    List.getLast?_eq_some_getLast final
  rcases List.append_eq_append_iff.mp split with ⟨more, rfl, behind⟩ | ⟨more, rfl, behind⟩
  · cases more with
    | nil =>
        obtain ⟨rfl, rfl⟩ := List.cons.inj behind
        rw [List.append_nil]
        exact ⟨rfl, ⟨_, lastOf word present, solid _ (List.getLast_mem present)⟩, opens⟩
    | cons space more =>
        obtain ⟨rfl, parts⟩ := List.cons.inj behind
        obtain ⟨same, ⟨last, final, onLeft⟩, onRight⟩ := spaced more char after parts blank
        refine ⟨same, ⟨last, ?_, onLeft⟩, onRight⟩
        have some : more ≠ [] := by
          rintro rfl
          cases final
        rw [lastOf more some] at final
        rw [List.append_cons, List.getLast?_append, lastOf more some]
        exact final
  · cases more with
    | nil =>
        obtain ⟨rfl, rfl⟩ := List.cons.inj behind
        rw [List.append_nil] at present solid
        exact ⟨rfl, ⟨_, lastOf before present, solid _ (List.getLast_mem present)⟩, opens⟩
    | cons first more =>
        obtain ⟨rfl, -⟩ := List.cons.inj behind
        have inside := solid char (by simp)
        exact absurd (inside.symm.trans blank) Bool.false_ne_true

/-- Between two words there is one space, and none before the first or behind the last. -/
theorem isSpaced_joined
    (proper : ∀ word ∈ words, word ≠ [] ∧ ∀ char ∈ word, isBlank char = false) :
    IsSpaced ([' '].intercalate words) := by
  induction words with
  | nil => exact isSpaced_of_solid (List.forall_mem_nil _)
  | cons word words ih =>
      obtain ⟨⟨present, solid⟩, others⟩ := List.forall_mem_cons.mp proper
      cases words with
      | nil =>
          rw [List.intercalate_singleton]
          exact isSpaced_of_solid solid
      | cons next words =>
          rw [joined_cons_cons]
          exact (ih others).word_append present solid
            (exists_head?_joined (others next List.mem_cons_self) words)

end Joining

end Text

namespace XPath

namespace Function

variable {text other : List Char}

/-- Normalizing keeps the words. -/
theorem hasWords_normalizedSpace (text : List Char) :
    Text.HasWords (normalizedSpace text) (Text.words text) :=
  Text.hasWords_joined (Text.hasWords_iff.mpr rfl).of_mem

theorem isSpaced_normalizedSpace (text : List Char) : Text.IsSpaced (normalizedSpace text) :=
  Text.isSpaced_joined (Text.hasWords_iff.mpr rfl).of_mem

/-- Texts with the same words are normalized to the same text, and no others are. -/
theorem normalizedSpace_eq_iff :
    normalizedSpace text = normalizedSpace other ↔ Text.words text = Text.words other := by
  constructor
  · intro same
    rw [← (hasWords_normalizedSpace text).words_eq, same, (hasWords_normalizedSpace other).words_eq]
  · exact congrArg ([' '].intercalate ·)

theorem normalizedSpace_normalizedSpace (text : List Char) :
    normalizedSpace (normalizedSpace text) = normalizedSpace text :=
  normalizedSpace_eq_iff.mpr (hasWords_normalizedSpace text).words_eq

end Function

/-- The function takes its argument as a text, or the text of the node if it has none. -/
theorem callFunction_normalizeSpace (document : Document) (focus : Focus) {arguments : List Value}
    (few : arguments.length ≤ 1) :
    callFunction "normalize-space" document focus arguments =
      .ok (.string (String.ofList (Function.normalizedSpace
        ((Function.argumentOrNode focus arguments).toText document).toList))) := by
  have admitted : Function.normalizeSpace.arity.admits arguments.length = true :=
    decide_eq_true few
  simp only [callFunction, Function.ofName?, admitted, if_true, Function.apply]

/-- Space is normalized to a text that has no white space but single spaces between other
characters, and that has the same words. Normalized again it stays as it is, and all texts with
these words are normalized to it, and no others. -/
theorem normalize_space_joins_words (document : Document) (focus : Focus) (text : String) :
    ∃ result : String,
      (∀ arguments, arguments.length ≤ 1 →
        (Function.argumentOrNode focus arguments).toText document = text →
          callFunction "normalize-space" document focus arguments = .ok (.string result)) ∧
      Text.IsSpaced result.toList ∧
      (∃ words, Text.HasWords text.toList words ∧ Text.HasWords result.toList words) ∧
      callFunction "normalize-space" document focus [.string result] = .ok (.string result) ∧
      ∀ other : String,
        callFunction "normalize-space" document focus [.string other] = .ok (.string result) ↔
          ∃ words, Text.HasWords text.toList words ∧ Text.HasWords other.toList words := by
  have single (source : String) : callFunction "normalize-space" document focus [.string source] =
      .ok (.string (String.ofList (Function.normalizedSpace source.toList))) :=
    callFunction_normalizeSpace document focus (Nat.le_refl 1)
  refine ⟨String.ofList (Function.normalizedSpace text.toList), ?_, ?_, ?_, ?_, ?_⟩
  · intro arguments few same
    rw [callFunction_normalizeSpace document focus few, same]
  · rw [String.toList_ofList]
    exact Function.isSpaced_normalizedSpace text.toList
  · rw [String.toList_ofList]
    exact ⟨_, Text.hasWords_iff.mpr rfl, Function.hasWords_normalizedSpace text.toList⟩
  · rw [single, String.toList_ofList, Function.normalizedSpace_normalizedSpace]
  · intro other
    rw [single, Except.ok.injEq, Value.string.injEq, String.ofList_inj,
      Function.normalizedSpace_eq_iff]
    constructor
    · intro same
      exact ⟨_, Text.hasWords_iff.mpr rfl, Text.hasWords_iff.mpr same⟩
    · rintro ⟨words, here, there⟩
      exact there.words_eq.trans here.words_eq.symm

end XPath

end XmlRecords
