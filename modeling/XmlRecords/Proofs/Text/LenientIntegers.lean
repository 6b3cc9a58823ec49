import Mathlib
import XmlRecords.Proofs.Text.Longest
import XmlRecords.Proofs.Text.Reading
import XmlRecords.Text.Lenient

/-! # Lenient integers

The digits that a lenient reader takes are the longest row with single underscores between them
(`Lenient.isLongest_digitRow`), and an integer is read from exactly these digits. It is held within
64 bits after every digit. A number that has left the range does not come back with more digits, so
that this is no different from putting the whole number into the range at the end
(`Lenient.integer_is_clamped`).
-/

namespace XmlRecords

namespace Lenient

variable {char : Char} {word text : List Char}

section Rows

/-- What may stand behind a digit of a row: digits, each with an underscore in front or without. -/
def rowTails : Language Char :=
  KStar.kstar ((1 + oneOf (· == '_')) * oneOf Char.isDigit)

/-- The rows of digits with single underscores between them. -/
def digitRows : Language Char :=
  oneOf Char.isDigit * rowTails

/-- Behind a digit a row ends, goes on with a digit, or has an underscore in front of one. -/
theorem rowTails_eq : rowTails = 1 + (digitRows + oneOf (· == '_') * digitRows) := by
  have unfolded : (1 + oneOf (· == '_')) * oneOf Char.isDigit * rowTails =
      digitRows + oneOf (· == '_') * digitRows := by
    rw [mul_assoc, add_mul, one_mul]
    rfl
  rw [← unfolded]
  exact (Language.one_add_self_mul_kstar_eq_kstar _).symm

/-- A row begins with a digit. -/
theorem cons_mem_digitRows : char :: word ∈ digitRows ↔ char.isDigit = true ∧ word ∈ rowTails :=
  cons_mem_oneOf_mul

theorem nil_notMem_digitRows : [] ∉ digitRows :=
  nil_notMem_oneOf_mul

theorem nil_mem_rowTails : [] ∈ rowTails := by
  rw [rowTails_eq]
  exact nil_mem_one_add

/-- The first character of what follows a digit tells how it goes on. -/
theorem cons_mem_rowTails :
    char :: word ∈ rowTails ↔
      (char.isDigit = true ∧ word ∈ rowTails) ∨ (char = '_' ∧ word ∈ digitRows) := by
  rw [rowTails_eq, cons_mem_one_add, Language.mem_add, cons_mem_digitRows, cons_mem_oneOf_mul,
    beq_iff_eq, ← rowTails_eq]

/-- What may be read of a row of digits, from its start or from behind a digit on. It may be nothing
in either case. -/
def rowsFrom : (behindDigit : Bool) → Language Char
  | true => rowTails
  | false => 1 + digitRows

theorem nil_mem_rowsFrom (behindDigit : Bool) : [] ∈ rowsFrom behindDigit := by
  cases behindDigit with
  | false => exact nil_mem_one_add
  | true => exact nil_mem_rowTails

/-- An underscore counts only behind a digit. -/
theorem cons_mem_rowsFrom {behindDigit : Bool} :
    char :: word ∈ rowsFrom behindDigit ↔
      (char.isDigit = true ∧ word ∈ rowTails) ∨
        (behindDigit = true ∧ char = '_' ∧ word ∈ digitRows) := by
  cases behindDigit with
  | false =>
      rw [rowsFrom, cons_mem_one_add, cons_mem_digitRows]
      simp only [Bool.false_eq_true, false_and, or_false]
  | true => simp only [rowsFrom, cons_mem_rowTails, true_and]

/-- A row has only digits and underscores in it. -/
theorem isDigit_or_eq_of_mem_rowTails (member : word ∈ rowTails) :
    ∀ char ∈ word, char.isDigit = true ∨ char = '_' := by
  induction word with
  | nil => exact nofun
  | cons first word ih =>
      rcases cons_mem_rowTails.mp member with ⟨isDigit, tail⟩ | ⟨underscore, row⟩
      · exact List.forall_mem_cons.mpr ⟨.inl isDigit, ih tail⟩
      · refine List.forall_mem_cons.mpr ⟨.inr underscore, ih ?_⟩
        cases word with
        | nil => exact nil_mem_rowTails
        | cons digit word => exact cons_mem_rowTails.mpr (.inl (cons_mem_digitRows.mp row))

/-- A text begins with a digit if it begins with a row of digits. -/
theorem beginsWithDigit_iff :
    beginsWithDigit text = true ↔ ∃ row ∈ digitRows, row <+: text := by
  cases text with
  | nil =>
      refine ⟨nofun, ?_⟩
      rintro ⟨row, isRow, starts⟩
      rw [List.prefix_nil.mp starts] at isRow
      exact absurd isRow nil_notMem_digitRows
  | cons first rest =>
      refine ⟨fun isDigit => ⟨[first], cons_mem_digitRows.mpr ⟨isDigit, nil_mem_rowTails⟩,
        List.prefix_append [first] rest⟩, ?_⟩
      rintro ⟨row, isRow, starts⟩
      cases row with
      | nil => exact absurd isRow nil_notMem_digitRows
      | cons digit row =>
          obtain ⟨rfl, -⟩ := List.cons_prefix_cons.mp starts
          exact (cons_mem_digitRows.mp isRow).1

/-- The row of digits that is taken is the longest one. -/
theorem isLongest_digitRow (behindDigit : Bool) (text : List Char) :
    IsLongest (rowsFrom behindDigit) (digitRow behindDigit text).1 text := by
  fun_induction digitRow behindDigit text with
  | case1 behindDigit => exact .of_nil (nil_mem_rowsFrom behindDigit)
  | case2 behindDigit char rest taken row behind split ih =>
      simp only [split] at ih
      by_cases isDigit : char.isDigit = true
      · rw [isDigit] at ih
        apply ih.cons (cons_mem_rowsFrom.mpr (.inl ⟨isDigit, ih.mem⟩))
        intro other member
        rcases cons_mem_rowsFrom.mp member with ⟨-, tail⟩ | ⟨-, rfl, -⟩
        · exact tail
        · cases isDigit
      · simp only [isDigit, Bool.false_or, Bool.and_eq_true, decide_eq_true_eq] at taken
        obtain ⟨⟨underscore, behindOne⟩, begins⟩ := taken
        rw [Bool.eq_false_iff.mpr isDigit] at ih
        -- A digit is in sight, so that the row behind the underscore is not empty.
        have isRow : row ∈ digitRows := by
          obtain ⟨other, isRow, starts⟩ := beginsWithDigit_iff.mp begins
          have shorter := ih.longest other (.inr isRow) starts
          rcases ih.mem with rfl | isRow
          · rw [List.eq_nil_of_length_eq_zero (Nat.le_zero.mp shorter)] at isRow
            exact isRow
          · exact isRow
        apply ih.cons (cons_mem_rowsFrom.mpr (.inr ⟨behindOne, underscore, isRow⟩))
        intro other member
        rcases cons_mem_rowsFrom.mp member with ⟨digit, -⟩ | ⟨-, -, row⟩
        · exact absurd digit isDigit
        · exact .inr row
  | case3 behindDigit char rest refused =>
      simp only [Bool.or_eq_true, Bool.and_eq_true, decide_eq_true_eq, not_or] at refused
      apply IsLongest.nil (nil_mem_rowsFrom behindDigit)
      intro other member starts
      cases other with
      | nil => rfl
      | cons first other =>
          obtain ⟨rfl, onward⟩ := List.cons_prefix_cons.mp starts
          rcases cons_mem_rowsFrom.mp member with ⟨isDigit, -⟩ | ⟨behindOne, underscore, row⟩
          · exact absurd isDigit refused.1
          · exact absurd ⟨⟨underscore, behindOne⟩, beginsWithDigit_iff.mpr ⟨other, row, onward⟩⟩
              refused.2

theorem append_digitRow (behindDigit : Bool) (text : List Char) :
    (digitRow behindDigit text).1 ++ (digitRow behindDigit text).2 = text := by
  fun_induction digitRow behindDigit text with
  | case1 => rfl
  | case2 behindDigit char rest taken row behind split ih =>
      simp only [split] at ih
      exact congrArg (char :: ·) ih
  | case3 => rfl

end Rows

section Integers

/-- The digits that an integer is read from, one after another. -/
def integerDigits : (behindDigit : Bool) → List Char → List Char
  | _, [] => []
  | behindDigit, char :: rest =>
      if char.isDigit then
        char :: integerDigits true rest
      else if behindDigit && char = '_' then
        integerDigits false rest
      else
        []

/-- Puts a digit behind a number, within 64 bits. -/
def appendDigit (isNegative : Bool) (number : Int) (char : Char) : Int :=
  let digit : Int := Numeral.digitValue char
  let shifted := clamp (10 * number)
  clamp (if isNegative then shifted - digit else shifted + digit)

/-- An integer is made of its digits, and of nothing else in the text. -/
theorem integerFrom_eq_foldl (isNegative : Bool) (number : Int) (behindDigit : Bool)
    (text : List Char) :
    integerFrom isNegative number behindDigit text =
      (integerDigits behindDigit text).foldl (appendDigit isNegative) number := by
  fun_induction integerFrom isNegative number behindDigit text with
  | case1 => rfl
  | case2 number behindDigit char rest isDigit digit shifted ih =>
      rw [integerDigits, if_pos isDigit, ih]
      rfl
  | case3 number behindDigit char rest isDigit underscore ih =>
      rw [integerDigits, if_neg isDigit, if_pos underscore, ih]
  | case4 number behindDigit char rest isDigit other =>
      rw [integerDigits, if_neg isDigit, if_neg other]
      rfl

/-- The digits of an integer are those of the row that it begins with. -/
theorem integerDigits_eq (behindDigit : Bool) (text : List Char) :
    integerDigits behindDigit text = (digitRow behindDigit text).1.filter Char.isDigit := by
  fun_induction digitRow behindDigit text with
  | case1 => rfl
  | case2 behindDigit char rest taken row behind split ih =>
      simp only [split] at ih
      rw [integerDigits]
      by_cases isDigit : char.isDigit = true
      · rw [if_pos isDigit, List.filter_cons_of_pos isDigit, ← ih, isDigit]
      · simp only [isDigit, Bool.false_or, Bool.and_eq_true, decide_eq_true_eq] at taken
        rw [if_neg isDigit, if_pos (Bool.and_eq_true_iff.mpr ⟨taken.1.2, by simpa using taken.1.1⟩),
          List.filter_cons_of_neg isDigit, ← ih, Bool.eq_false_iff.mpr isDigit]
  | case3 behindDigit char rest refused =>
      simp only [Bool.or_eq_true, Bool.and_eq_true, decide_eq_true_eq, not_or] at refused
      rw [integerDigits, if_neg refused.1]
      split
      · rename_i underscore
        simp only [Bool.and_eq_true, decide_eq_true_eq] at underscore
        cases rest with
        | nil => rfl
        | cons other rest =>
            have noDigit : ¬other.isDigit = true := fun isDigit =>
              refused.2 ⟨⟨underscore.2, underscore.1⟩, isDigit⟩
            rw [integerDigits, if_neg noDigit]
            rfl
      · rfl

/-- A clamped number is the nearest one that fits 64 bits. -/
theorem clamp_eq (number : Int) : clamp number = max (-2 ^ 63) (min number (2 ^ 63 - 1)) :=
  rfl

/-- A natural number with a sign. -/
def signed (isNegative : Bool) (magnitude : Nat) : Int :=
  if isNegative then -magnitude else magnitude

/-- A number that is in range already, or has left it, is put into range again with a digit
behind. -/
theorem appendDigit_clamp (isNegative : Bool) (magnitude : Nat) (char : Char) :
    appendDigit isNegative (clamp (signed isNegative magnitude)) char =
      clamp (signed isNegative (10 * magnitude + Numeral.digitValue char)) := by
  unfold appendDigit signed
  cases isNegative with
  | false =>
      simp only [Bool.false_eq_true, ↓reduceIte, clamp_eq]
      omega
  | true =>
      simp only [↓reduceIte, clamp_eq]
      omega

/-- What is kept after each digit is the number read so far, clamped: beyond the range more digits
change nothing, and below it the next digit is appended as it is. The induction is along the row. -/
theorem foldl_appendDigit (isNegative : Bool) (magnitude : Nat) (row : List Char) :
    row.foldl (appendDigit isNegative) (clamp (signed isNegative magnitude)) =
      clamp (signed isNegative
        (row.foldl (fun number digit => 10 * number + Numeral.digitValue digit) magnitude)) := by
  induction row generalizing magnitude with
  | nil => rfl
  | cons char row ih => rw [List.foldl_cons, List.foldl_cons, appendDigit_clamp, ih]

end Integers

section Openings

/-- The character is a sign. -/
def isSign (char : Char) : Bool :=
  char == '-' || char == '+'

theorem signPart_cons (char : Char) (rest : List Char) :
    signPart (char :: rest) = if isSign char then ([char], rest) else ([], char :: rest) := by
  by_cases minus : char = '-'
  · rw [minus]
    rfl
  by_cases plus : char = '+'
  · rw [plus]
    rfl
  · have other : isSign char = false := by
      rw [isSign, beq_eq_false_iff_ne.mpr minus, beq_eq_false_iff_ne.mpr plus]
      rfl
    rw [other]
    unfold signPart
    split
    · rename_i same
      exact absurd (List.cons.inj same).1 minus
    · rename_i same
      exact absurd (List.cons.inj same).1 plus
    · rfl

/-- The sign that is taken is the longest one. -/
theorem isLongest_signPart (text : List Char) :
    IsLongest (1 + oneOf isSign) (signPart text).1 text := by
  rw [← mul_one (oneOf isSign)]
  cases text with
  | nil => exact .of_nil nil_mem_one_add
  | cons char rest =>
      rw [signPart_cons]
      by_cases holds : isSign char = true
      · rw [if_pos holds]
        have nothing : IsLongest 1 [] rest := .nil rfl fun _ empty _ => empty
        exact nothing.marked holds
      · rw [if_neg holds]
        exact .unmarked fun sign => absurd sign holds

/-- The sign is cut off in front. -/
theorem append_signPart (text : List Char) : (signPart text).1 ++ (signPart text).2 = text := by
  fun_cases signPart text <;> rfl

theorem readSign_eq (text : List Char) :
    Binary64.readSign text = ((signPart text).1 == ['-'], (signPart text).2) := by
  fun_cases signPart text with
  | case1 rest => rfl
  | case2 rest => rfl
  | case3 text noMinus noPlus =>
      unfold Binary64.readSign
      split
      · exact absurd rfl (noMinus _)
      · exact absurd rfl (noPlus _)
      · rfl

/-- The parts of a text that a number is read from: white space, a sign if there is one, the longest
row of digits, which may be missing too, and the rest. -/
structure IsOpening (text blanks sign row rest : List Char) : Prop where
  text_eq : text = blanks ++ (sign ++ (row ++ rest))
  blank : ∀ char ∈ blanks, Text.isBlank char = true
  behindBlanks : ∀ char ∈ (sign ++ (row ++ rest)).head?, Text.isBlank char = false
  sign : IsLongest (1 + oneOf isSign) sign (sign ++ (row ++ rest))
  row : IsLongest (1 + digitRows) row (row ++ rest)

namespace IsOpening

variable {blanks sign row rest : List Char}

/-- Every text has an opening, which is what the readers take off it. -/
theorem of_text (text : List Char) :
    let behindBlanks := Text.trimStart text
    let behindSign := (signPart behindBlanks).2
    IsOpening text (text.takeWhile Text.isBlank) (signPart behindBlanks).1
      (digitRow false behindSign).1 (digitRow false behindSign).2 := by
  intro behindBlanks behindSign
  have whole : (signPart behindBlanks).1 ++
      ((digitRow false behindSign).1 ++ (digitRow false behindSign).2) = behindBlanks := by
    rw [append_digitRow, append_signPart]
  refine ⟨?_, List.all_eq_true.mp List.all_takeWhile, ?_, ?_, ?_⟩
  · rw [whole]
    exact List.takeWhile_append_dropWhile.symm
  · rw [whole]
    have behind := of_mem_head?_span Text.isBlank text
    rwa [List.span_eq_takeWhile_dropWhile] at behind
  · rw [whole]
    exact isLongest_signPart behindBlanks
  · rw [append_digitRow]
    exact isLongest_digitRow false behindSign

variable (opening : IsOpening text blanks sign row rest)

include opening

/-- The white space in front ends where the sign or the digits begin. -/
theorem trimStart_eq : Text.trimStart text = sign ++ (row ++ rest) := by
  have split := span_append opening.blank opening.behindBlanks
  rw [← opening.text_eq, List.span_eq_takeWhile_dropWhile] at split
  exact congrArg Prod.snd split

/-- The longest sign is the one that is cut off. -/
theorem signPart_eq : signPart (sign ++ (row ++ rest)) = (sign, row ++ rest) := by
  have same := opening.sign.eq (isLongest_signPart _)
  have whole := append_signPart (sign ++ (row ++ rest))
  rw [← same, List.append_cancel_left_eq] at whole
  exact Prod.ext same.symm whole

/-- The longest row is the one that is read. -/
theorem digitRow_eq : digitRow false (row ++ rest) = (row, rest) := by
  have same := opening.row.eq (isLongest_digitRow false _)
  have whole := append_digitRow false (row ++ rest)
  rw [← same, List.append_cancel_left_eq] at whole
  exact Prod.ext same.symm whole

end IsOpening

end Openings

/-- An integer is read from the digits of the row that a text opens with, and of nothing else in the
text. -/
theorem integer_eq_foldl {text : String} {blanks sign row rest : List Char}
    (opening : IsOpening text.toList blanks sign row rest) :
    integer text =
      Int64.ofInt ((row.filter Char.isDigit).foldl (appendDigit (sign == ['-'])) 0) := by
  simp only [integer, opening.trimStart_eq, readSign_eq, opening.signPart_eq,
    integerFrom_eq_foldl, integerDigits_eq, opening.digitRow_eq]

/-- The integer of a text is the number of its row, clamped, with the sign in front. -/
theorem toInt_integer {text : String} {blanks sign row rest : List Char}
    (opening : IsOpening text.toList blanks sign row rest) :
    (integer text).toInt =
      clamp (signed (sign == ['-']) (Numeral.value (row.filter Char.isDigit))) := by
  have start : clamp (signed (sign == ['-']) 0) = 0 := by
    cases sign == ['-'] <;> rfl
  rw [integer_eq_foldl opening, ← start, foldl_appendDigit]
  apply Int64.toInt_ofInt_of_le
  · rw [clamp_eq]
    exact Int.le_max_left _ _
  · rw [clamp_eq]
    omega

/-- Every text has an opening, and its integer is that of the digits in it, put into the range of 64
bits; it is zero without a digit. What stands behind the longest row of digits does not count, be it
an underscore: texts with the same sign and the same row have the same integer. -/
theorem integer_is_clamped (text : String) :
    (∃ blanks sign row rest, IsOpening text.toList blanks sign row rest) ∧
    ∀ blanks sign row rest, IsOpening text.toList blanks sign row rest →
      (integer text).toInt = max (-2 ^ 63)
        (min (signed (sign == ['-']) (Numeral.value (row.filter Char.isDigit))) (2 ^ 63 - 1)) ∧
      (row = [] → integer text = 0) ∧
      ∀ (other : String) (before behind : List Char),
        IsOpening other.toList before sign row behind → integer other = integer text := by
  refine ⟨⟨_, _, _, _, IsOpening.of_text text.toList⟩, ?_⟩
  intro blanks sign row rest opening
  refine ⟨toInt_integer opening, ?_, ?_⟩
  · intro empty
    rw [integer_eq_foldl opening, empty]
    rfl
  · intro other before behind otherOpening
    rw [integer_eq_foldl opening, integer_eq_foldl otherOpening]

/-- Below the least integer of 64 bits, with a wide blank in front and two underscores behind. -/
theorem integer_is_clamped_below :
    let row : List Char := "9_223_372_036_854_775_809".toList
    IsOpening "\u3000-9_223_372_036_854_775_809__7".toList ['\u3000'] ['-'] row "__7".toList ∧
      IsOpening "-9_223_372_036_854_775_809_.5".toList [] ['-'] row "_.5".toList ∧
      (integer "\u3000-9_223_372_036_854_775_809__7").toInt = -2 ^ 63 ∧
      integer "-9_223_372_036_854_775_809_.5" =
        integer "\u3000-9_223_372_036_854_775_809__7" := by
  intro row
  have opening : IsOpening "\u3000-9_223_372_036_854_775_809__7".toList ['\u3000'] ['-'] row
      "__7".toList :=
    IsOpening.of_text _
  have other : IsOpening "-9_223_372_036_854_775_809_.5".toList [] ['-'] row "_.5".toList :=
    IsOpening.of_text _
  obtain ⟨clamped, -, alike⟩ := (integer_is_clamped _).2 _ _ _ _ opening
  refine ⟨opening, other, ?_, alike _ _ _ other⟩
  rw [clamped]
  rfl

end Lenient

end XmlRecords
