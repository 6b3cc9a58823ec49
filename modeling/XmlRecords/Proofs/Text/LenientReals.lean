import XmlRecords.Proofs.Text.LenientIntegers

/-! # Lenient doubles

The grammar of the numbers that a double is read from, as languages (`Lenient.numbers`), and the
reader that takes one part after the other. A fraction or an exponent without a digit is left
behind. No part can begin with a character that the part in front of it may have, so that the
longest parts make the longest number. The reader of doubles behind it accepts every number of the
grammar without its underscores (`Lenient.exists_read?`), and zero stands only for a text without a
number (`Lenient.real_reads_longest_number`).
-/

namespace XmlRecords

namespace Lenient

variable {char : Char} {word text : List Char}

section Grammar

/-- The character stands in front of an exponent. -/
def isExponentMark (char : Char) : Bool :=
  char = 'e' || char = 'E'

theorem isExponentMark_iff : isExponentMark char = true ↔ char = 'e' ∨ char = 'E' := by
  rw [isExponentMark, Bool.or_eq_true, decide_eq_true_eq, decide_eq_true_eq]

/-- Points with a row of digits. -/
def fractions : Language Char :=
  oneOf (· == '.') * digitRows

/-- Rows of digits with a fraction behind them or without, and fractions alone. -/
def significands : Language Char :=
  digitRows * (1 + fractions) + fractions

/-- Marks with a row of digits, which may have a sign. -/
def exponents : Language Char :=
  oneOf isExponentMark * ((1 + oneOf isSign) * digitRows)

/-- The numbers that are read: a sign or none, a significand, and an exponent or none. -/
def numbers : Language Char :=
  (1 + oneOf isSign) * (significands * (1 + exponents))

theorem one_add_significands : 1 + significands = (1 + digitRows) * (1 + fractions) := by
  rw [significands, add_mul, one_mul, mul_add, mul_one]
  abel

theorem nil_notMem_significands : [] ∉ significands := by
  intro empty
  rcases empty with whole | fraction
  · exact nil_notMem_mul nil_notMem_digitRows whole
  · exact nil_notMem_oneOf_mul fraction

/-- A significand begins with a digit or a point. -/
theorem isDigit_or_eq_of_cons_mem_significands (member : char :: word ∈ significands) :
    char.isDigit = true ∨ char = '.' := by
  rcases member with whole | fraction
  · obtain ⟨row, isRow⟩ := exists_cons_mem_of_mul nil_notMem_digitRows whole
    exact .inl (cons_mem_digitRows.mp isRow).1
  · exact .inr (beq_iff_eq.mp (cons_mem_oneOf_mul.mp fraction).1)

section Characters

variable {property : Char → Prop} (digit : ∀ char, char.isDigit = true → property char)
  (underscore : property '_')

include digit underscore

theorem writtenWith_digitRows : WrittenWith property digitRows := by
  intro word isRow
  cases word with
  | nil => exact nofun
  | cons first word =>
      intro char present
      have tail := cons_mem_rowTails.mpr (.inl (cons_mem_digitRows.mp isRow))
      rcases isDigit_or_eq_of_mem_rowTails tail char present with isDigit | rfl
      · exact digit char isDigit
      · exact underscore

variable (point : property '.')

include point

theorem writtenWith_fractions : WrittenWith property fractions := by
  refine .mul (.of_oneOf ?_) (writtenWith_digitRows digit underscore)
  intro char same
  rwa [beq_iff_eq.mp same]

theorem writtenWith_significands : WrittenWith property significands :=
  have rows := writtenWith_digitRows digit underscore
  have fractions := writtenWith_fractions digit underscore point
  (rows.mul fractions.one_add).add fractions

end Characters

theorem isDigit_or_eq_of_mem_digitRows (member : word ∈ 1 + digitRows) :
    ∀ char ∈ word, char.isDigit = true ∨ char = '_' :=
  (writtenWith_digitRows (fun _ => .inl) (.inr rfl)).one_add word member

theorem mem_one_add_fractions :
    word ∈ 1 + fractions ↔ word = [] ∨ ∃ row ∈ digitRows, word = '.' :: row := by
  rw [Language.mem_add, Language.mem_one, fractions, mem_oneOf_mul]
  simp only [beq_iff_eq, exists_and_left, exists_eq_left]

theorem mem_one_add_exponents :
    word ∈ 1 + exponents ↔ word = [] ∨ ∃ mark sign row, isExponentMark mark = true ∧
      sign ∈ 1 + oneOf isSign ∧ row ∈ digitRows ∧ word = mark :: (sign ++ row) := by
  rw [Language.mem_add, Language.mem_one, exponents, mem_oneOf_mul]
  apply or_congr_right
  constructor
  · rintro ⟨mark, _, holds, signed, rfl⟩
    obtain ⟨sign, isSign, row, isRow, rfl⟩ := Language.mem_mul.mp signed
    exact ⟨mark, sign, row, holds, isSign, isRow, rfl⟩
  · rintro ⟨mark, sign, row, holds, isSign, isRow, rfl⟩
    exact ⟨mark, sign ++ row, holds, Language.append_mem_mul isSign isRow, rfl⟩

end Grammar

section Parts

theorem isSign_iff : isSign char = true ↔ char = '-' ∨ char = '+' := by
  rw [isSign, Bool.or_eq_true, beq_iff_eq, beq_iff_eq]

theorem isSign_of_mem {sign : List Char} (member : sign ∈ 1 + oneOf isSign) :
    ∀ char ∈ sign, isSign char = true := by
  rcases member with rfl | ⟨char, holds, rfl⟩
  · exact nofun
  · intro other present
    rwa [List.mem_singleton.mp present]

theorem isDigit_of_isSign (holds : isSign char = true) : char.isDigit = false := by
  rcases isSign_iff.mp holds with rfl | rfl <;> rfl

theorem isSign_of_isDigit (isDigit : char.isDigit = true) : isSign char = false := by
  apply Bool.eq_false_iff.mpr
  intro holds
  cases (isDigit_of_isSign holds).symm.trans isDigit

theorem isDigit_of_isExponentMark (isMark : isExponentMark char = true) : char.isDigit = false := by
  rcases isExponentMark_iff.mp isMark with rfl | rfl <;> rfl

theorem isExponentMark_of_isDigit (isDigit : char.isDigit = true) :
    isExponentMark char = false := by
  apply Bool.eq_false_iff.mpr
  intro holds
  cases (isDigit_of_isExponentMark holds).symm.trans isDigit

/-- A sign does not begin a row of digits. -/
theorem sign_apart_digitRows {sign : List Char} (member : sign ∈ 1 + oneOf isSign) :
    ∀ char ∈ sign, ∀ other, char :: other ∉ digitRows := by
  intro char present other isRow
  have isDigit := (cons_mem_digitRows.mp isRow).1
  rw [isDigit_of_isSign (isSign_of_mem member char present)] at isDigit
  cases isDigit

/-- The fraction that is taken is the longest one. -/
theorem isLongest_fractionPart (text : List Char) :
    IsLongest (1 + fractions) (fractionPart text).1 text := by
  fun_cases fractionPart text with
  | case1 rest row behind split empty =>
      have longest := isLongest_digitRow false rest
      rw [split, List.isEmpty_iff.mp empty] at longest
      exact .unmarked fun _ => longest.not_prefix nil_notMem_digitRows
  | case2 rest row behind split present =>
      have longest := isLongest_digitRow false rest
      rw [split] at longest
      have isRow := longest.of_one_add (mt List.isEmpty_iff.mpr present)
      exact isRow.marked rfl
  | case3 text other =>
      cases text with
      | nil => exact .of_nil nil_mem_one_add
      | cons char rest =>
          apply IsLongest.unmarked
          intro point
          rw [beq_iff_eq.mp point] at other
          exact absurd rfl (other rest)

theorem append_fractionPart (text : List Char) :
    (fractionPart text).1 ++ (fractionPart text).2 = text := by
  fun_cases fractionPart text with
  | case1 => rfl
  | case2 rest row behind split present =>
      have whole := append_digitRow false rest
      rw [split] at whole
      exact congrArg ('.' :: ·) whole
  | case3 => rfl

/-- The exponent that is taken is the longest one. -/
theorem isLongest_exponentPart (text : List Char) :
    IsLongest (1 + exponents) (exponentPart text) text := by
  cases text with
  | nil => exact .of_nil nil_mem_one_add
  | cons mark rest =>
      have signed := isLongest_signPart rest
      have whole := append_signPart rest
      rcases parts : signPart rest with ⟨sign, behindSign⟩
      rw [parts] at signed whole
      subst whole
      have digits := isLongest_digitRow false behindSign
      rcases split : digitRow false behindSign with ⟨row, behind⟩
      rw [split] at digits
      have apart := sign_apart_digitRows signed.mem
      simp only [exponentPart, parts, split]
      by_cases present : row = []
      · rw [present] at digits
        rw [present, List.isEmpty_nil, Bool.not_true, Bool.and_false]
        have missing := digits.not_prefix nil_notMem_digitRows
        exact .unmarked fun _ => signed.not_prefix_mul apart missing nil_notMem_digitRows
      · have longest := signed.append apart (digits.of_one_add present)
        rw [List.isEmpty_eq_false_iff.mpr present, Bool.not_false, Bool.and_true]
        split
        · exact longest.marked ‹_›
        · exact .unmarked fun mark => absurd mark ‹_›

/-- Behind the sign and the digits of an opening, a number goes on with a fraction and an
exponent. -/
theorem leadingNumber?_eq {blanks sign row rest : List Char}
    (opening : IsOpening text blanks sign row rest) :
    leadingNumber? (sign ++ (row ++ rest)) =
      if row ++ (fractionPart rest).1 = [] then none
      else some (sign ++ (row ++ (fractionPart rest).1 ++ exponentPart (fractionPart rest).2)) := by
  simp only [leadingNumber?, opening.signPart_eq, opening.digitRow_eq, Bool.and_eq_true,
    List.isEmpty_iff, List.append_eq_nil_iff, List.append_assoc]

/-- A sign does not begin a significand. -/
theorem sign_apart_significands {sign : List Char} (member : sign ∈ 1 + oneOf isSign)
    (language : Language Char) :
    ∀ char ∈ sign, ∀ other, char :: other ∉ significands * language := by
  intro char present other number
  obtain ⟨rest, begins⟩ := exists_cons_mem_of_mul nil_notMem_significands number
  have holds := isSign_of_mem member char present
  rcases isDigit_or_eq_of_cons_mem_significands begins with isDigit | rfl
  · cases (isDigit_of_isSign holds).symm.trans isDigit
  · cases holds

namespace IsOpening

variable {blanks sign row rest : List Char} (opening : IsOpening text blanks sign row rest)

include opening

theorem isLongest_significand :
    IsLongest (1 + significands) (row ++ (fractionPart rest).1) (row ++ rest) := by
  rw [one_add_significands]
  apply opening.row.append _ (isLongest_fractionPart rest)
  intro char present other member
  have point := (cons_mem_oneOf_mul.mp (cons_mem_one_add.mp member)).1
  rw [beq_iff_eq.mp point] at present
  rcases isDigit_or_eq_of_mem_digitRows opening.row.mem '.' present with digit | underscore
  · cases digit
  · cases underscore

/-- With a digit in it, what is taken is the longest number. -/
theorem isLongest_number (present : row ++ (fractionPart rest).1 ≠ []) :
    IsLongest numbers
      (sign ++ (row ++ (fractionPart rest).1 ++ exponentPart (fractionPart rest).2))
      (sign ++ (row ++ rest)) := by
  have significand := opening.isLongest_significand.of_one_add present
  have characters : WrittenWith (fun char => isExponentMark char = false) significands :=
    writtenWith_significands (fun _ => isExponentMark_of_isDigit) rfl rfl
  have whole : row ++ rest = row ++ (fractionPart rest).1 ++ (fractionPart rest).2 := by
    rw [List.append_assoc, append_fractionPart]
  have apart : ∀ char ∈ row ++ (fractionPart rest).1, ∀ other, char :: other ∉ 1 + exponents := by
    intro char within other member
    have mark := (cons_mem_oneOf_mul.mp (cons_mem_one_add.mp member)).1
    cases (characters _ significand.mem char within).symm.trans mark
  have signed := opening.sign
  rw [whole] at significand signed ⊢
  exact signed.append (sign_apart_significands opening.sign.mem _)
    (significand.append apart (isLongest_exponentPart _))

/-- Without a digit in front of an exponent, there is no number. -/
theorem not_prefix_number (missing : row ++ (fractionPart rest).1 = []) :
    ∀ other ∈ numbers, ¬other <+: sign ++ (row ++ rest) := by
  have significand := opening.isLongest_significand
  rw [missing] at significand
  apply opening.sign.not_prefix_mul (sign_apart_significands opening.sign.mem _)
  · intro other member starts
    obtain ⟨front, isSignificand, behind, -, rfl⟩ := Language.mem_mul.mp member
    exact significand.not_prefix nil_notMem_significands front isSignificand
      ((List.prefix_append front behind).trans starts)
  · exact nil_notMem_mul nil_notMem_significands

end IsOpening

end Parts

section Reading

/-- What is left of a text without its underscores. -/
def withoutUnderscores (text : List Char) : List Char :=
  text.filter fun char => char != '_'

variable {sign row fraction exponent rest : List Char}

theorem withoutUnderscores_append (first second : List Char) :
    withoutUnderscores (first ++ second) = withoutUnderscores first ++ withoutUnderscores second :=
  List.filter_append first second

theorem withoutUnderscores_cons (different : char ≠ '_') (rest : List Char) :
    withoutUnderscores (char :: rest) = char :: withoutUnderscores rest :=
  List.filter_cons_of_pos (bne_iff_ne.mpr different)

theorem isDigit_of_mem_withoutUnderscores (member : row ∈ 1 + digitRows) :
    ∀ char ∈ withoutUnderscores row, char.isDigit = true := by
  intro char present
  obtain ⟨within, different⟩ := List.mem_filter.mp present
  exact (isDigit_or_eq_of_mem_digitRows member char within).resolve_right (bne_iff_ne.mp different)

/-- The first digit of a row is not an underscore. -/
theorem withoutUnderscores_ne_nil (isRow : row ∈ digitRows) : withoutUnderscores row ≠ [] := by
  cases row with
  | nil => exact absurd isRow nil_notMem_digitRows
  | cons digit row =>
      have isDigit := (cons_mem_digitRows.mp isRow).1
      have different : digit ≠ '_' := by
        rintro rfl
        cases isDigit
      rw [withoutUnderscores_cons different]
      exact List.cons_ne_nil _ _

theorem withoutUnderscores_sign (member : sign ∈ 1 + oneOf isSign) :
    withoutUnderscores sign = sign := by
  rcases member with rfl | ⟨char, holds, rfl⟩
  · rfl
  · have different : char ≠ '_' := by
      rintro rfl
      cases holds
    exact withoutUnderscores_cons different []

theorem withoutUnderscores_exponent (isMark : isExponentMark char = true)
    (isSign : sign ∈ 1 + oneOf isSign) (row : List Char) :
    withoutUnderscores (char :: (sign ++ row)) = char :: (sign ++ withoutUnderscores row) := by
  have different : char ≠ '_' := by
    rintro rfl
    cases isMark
  rw [withoutUnderscores_cons different, withoutUnderscores_append, withoutUnderscores_sign isSign]

/-- A sign is read where no other sign follows. -/
theorem readSign_append (member : sign ∈ 1 + oneOf isSign)
    (behind : ∀ char ∈ rest.head?, isSign char = false) :
    Binary64.readSign (sign ++ rest) = (sign == ['-'], rest) := by
  rw [readSign_eq]
  rcases member with rfl | ⟨char, holds, rfl⟩
  · cases rest with
    | nil => rfl
    | cons char rest =>
        rw [List.nil_append, signPart_cons, behind char rfl]
        rfl
  · rw [List.singleton_append, signPart_cons, if_pos holds]

theorem exists_readExponent? (member : exponent ∈ 1 + exponents) :
    ∃ power, Binary64.readExponent? (withoutUnderscores exponent) = some power := by
  rcases mem_one_add_exponents.mp member with rfl | ⟨mark, sign, row, isMark, isSign, isRow, rfl⟩
  · exact ⟨0, rfl⟩
  · have digits := isDigit_of_mem_withoutUnderscores (.inr isRow)
    have signRead := readSign_append isSign
      fun digit first => isSign_of_isDigit (digits digit (List.mem_of_mem_head? first))
    rw [withoutUnderscores_exponent isMark isSign]
    simp only [Binary64.readExponent?, signRead]
    rw [if_pos ⟨isExponentMark_iff.mp isMark, withoutUnderscores_ne_nil isRow,
      List.all_eq_true.mpr digits⟩]
    exact ⟨_, rfl⟩

/-- Behind a significand stands the mark of an exponent, or nothing. -/
theorem isExponentMark_of_mem_head? (member : exponent ∈ 1 + exponents) :
    ∀ char ∈ (withoutUnderscores exponent).head?, isExponentMark char = true := by
  rcases mem_one_add_exponents.mp member with rfl | ⟨mark, sign, row, isMark, isSign, -, rfl⟩
  · exact nofun
  · rw [withoutUnderscores_exponent isMark isSign]
    exact forall_mem_head?_cons isMark

/-- A fraction is read up to the exponent, and its digits are not lost. -/
theorem exists_readFraction (isFraction : fraction ∈ 1 + fractions)
    (behind : ∀ char ∈ rest.head?, isExponentMark char = true) :
    ∃ digits, Binary64.readFraction (withoutUnderscores fraction ++ rest) = (digits, rest) ∧
      (fraction ≠ [] → digits ≠ []) := by
  rcases mem_one_add_fractions.mp isFraction with rfl | ⟨row, isRow, rfl⟩
  · refine ⟨[], ?_, absurd rfl⟩
    cases rest with
    | nil => rfl
    | cons mark rest =>
        rcases isExponentMark_iff.mp (behind mark rfl) with rfl | rfl <;> rfl
  · have split := span_append (isDigit_of_mem_withoutUnderscores (.inr isRow))
      fun char first => isDigit_of_isExponentMark (behind char first)
    exact ⟨withoutUnderscores row, split, fun _ => withoutUnderscores_ne_nil isRow⟩

/-- Neither a fraction nor an exponent begins with a digit. -/
theorem isDigit_of_mem_head?_fraction (isFraction : fraction ∈ 1 + fractions)
    (behind : ∀ char ∈ rest.head?, isExponentMark char = true) :
    ∀ char ∈ (withoutUnderscores fraction ++ rest).head?, char.isDigit = false := by
  rcases mem_one_add_fractions.mp isFraction with rfl | ⟨row, -, rfl⟩
  · exact fun char first => isDigit_of_isExponentMark (behind char first)
  · exact forall_mem_head?_cons rfl

theorem exists_readDecimal? (isNegative : Bool) (isRow : row ∈ 1 + digitRows)
    (isFraction : fraction ∈ 1 + fractions) (isExponent : exponent ∈ 1 + exponents)
    (present : row ++ fraction ≠ []) :
    ∃ number, Binary64.readDecimal? isNegative (withoutUnderscores (row ++ fraction ++ exponent)) =
      some number := by
  have behind := isExponentMark_of_mem_head? isExponent
  have whole := span_append (isDigit_of_mem_withoutUnderscores isRow)
    (isDigit_of_mem_head?_fraction isFraction behind)
  obtain ⟨digits, fractionRead, digitsPresent⟩ := exists_readFraction isFraction behind
  obtain ⟨power, powerRead⟩ := exists_readExponent? isExponent
  have someDigit : ¬((withoutUnderscores row).isEmpty && digits.isEmpty) = true := by
    rw [Bool.and_eq_true, List.isEmpty_iff, List.isEmpty_iff]
    rintro ⟨noWhole, noFraction⟩
    apply present
    rcases isRow with rfl | isRow
    · by_contra fractionPresent
      exact digitsPresent fractionPresent noFraction
    · exact absurd noWhole (withoutUnderscores_ne_nil isRow)
  rw [List.append_assoc, withoutUnderscores_append, withoutUnderscores_append]
  simp only [Binary64.readDecimal?, whole, fractionRead, powerRead]
  rw [if_neg someDigit]
  exact ⟨_, rfl⟩

/-- A number without its sign begins with a digit or a point. -/
theorem exists_withoutUnderscores_eq_cons (isRow : row ∈ 1 + digitRows)
    (isFraction : fraction ∈ 1 + fractions) (present : row ++ fraction ≠ [])
    (exponent : List Char) :
    ∃ first others, withoutUnderscores (row ++ fraction ++ exponent) = first :: others ∧
      (first.isDigit = true ∨ first = '.') := by
  rw [List.append_assoc, withoutUnderscores_append]
  rcases isRow with rfl | isRow
  · rcases mem_one_add_fractions.mp isFraction with rfl | ⟨row, -, rfl⟩
    · exact absurd rfl present
    · exact ⟨'.', withoutUnderscores (row ++ exponent), rfl, .inr rfl⟩
  · obtain ⟨digit, digits, row_eq⟩ := List.exists_cons_of_ne_nil (withoutUnderscores_ne_nil isRow)
    have isDigit := isDigit_of_mem_withoutUnderscores (.inr isRow) digit
      (row_eq ▸ List.mem_cons_self)
    exact ⟨digit, digits ++ withoutUnderscores (fraction ++ exponent),
      congrArg (· ++ withoutUnderscores (fraction ++ exponent)) row_eq, .inl isDigit⟩

/-- What does not begin with a letter is no name in letters of either case. -/
theorem ofList_map_toLower_ne {name : String} {letter : Char} {letters others : List Char}
    (written : name.toList = letter :: letters) (isLetter : letter.isAlpha = true)
    (noLetter : char.isAlpha = false) :
    String.ofList ((char :: others).map Char.toLower) ≠ name := by
  rintro rfl
  rw [String.toList_ofList, List.map_cons] at written
  rw [← (List.cons.inj written).1, Char.isAlpha_toLower_eq_isAlpha, noLetter] at isLetter
  cases isLetter

theorem isAlpha_of_isDigit (isDigit : char.isDigit = true) : char.isAlpha = false := by
  by_contra letter
  simp only [Char.isAlpha, Char.isUpper, Char.isLower, Char.isDigit, Bool.not_eq_false,
    ge_iff_le, UInt32.le_iff_toNat_le, Bool.or_eq_true, Bool.and_eq_true, decide_eq_true_eq,
    Char.reduceVal, UInt32.reduceToNat] at isDigit letter
  omega

/-- Every number is read as a double, when its underscores are left out. -/
theorem exists_read? (hasSign : sign ∈ 1 + oneOf isSign) (isRow : row ∈ 1 + digitRows)
    (isFraction : fraction ∈ 1 + fractions) (isExponent : exponent ∈ 1 + exponents)
    (present : row ++ fraction ≠ []) :
    ∃ number, Binary64.read? (withoutUnderscores (sign ++ (row ++ fraction ++ exponent))) =
      some number := by
  obtain ⟨first, others, begins, kind⟩ :=
    exists_withoutUnderscores_eq_cons isRow isFraction present exponent
  have noSign : isSign first = false := by
    rcases kind with isDigit | rfl
    · exact isSign_of_isDigit isDigit
    · rfl
  have noLetter : first.isAlpha = false := by
    rcases kind with isDigit | rfl
    · exact isAlpha_of_isDigit isDigit
    · rfl
  obtain ⟨number, read⟩ := exists_readDecimal? (sign == ['-']) isRow isFraction isExponent present
  have signRead : Binary64.readSign (sign ++ first :: others) = (sign == ['-'], first :: others) :=
    readSign_append hasSign (forall_mem_head?_cons noSign)
  rw [begins] at read
  refine ⟨number, ?_⟩
  rw [withoutUnderscores_append, withoutUnderscores_sign hasSign, begins]
  simp only [Binary64.read?, signRead]
  rw [if_neg, if_neg, read]
  · exact ofList_map_toLower_ne rfl rfl noLetter
  · apply not_or.mpr
    exact ⟨ofList_map_toLower_ne rfl rfl noLetter, ofList_map_toLower_ne rfl rfl noLetter⟩

end Reading

/-- Every character of a number takes one byte, so that a number ends in front of a character also
where the bytes of a text are counted. -/
theorem utf8Size_of_mem_numbers : WrittenWith (fun char => char.utf8Size = 1) numbers := by
  have digit (char : Char) (isDigit : char.isDigit = true) : char.utf8Size = 1 := by
    rw [Char.isDigit, Bool.and_eq_true, decide_eq_true_eq, decide_eq_true_eq] at isDigit
    exact Char.utf8Size_eq_one_iff.mpr (UInt32.le_trans isDigit.2 (by decide))
  have signs : WrittenWith (fun char => char.utf8Size = 1) (oneOf isSign) := by
    refine .of_oneOf fun char holds => ?_
    rcases isSign_iff.mp holds with rfl | rfl <;> rfl
  have marks : WrittenWith (fun char => char.utf8Size = 1) (oneOf isExponentMark) := by
    refine .of_oneOf fun char holds => ?_
    rcases isExponentMark_iff.mp holds with rfl | rfl <;> rfl
  have exponents := marks.mul (signs.one_add.mul (writtenWith_digitRows digit rfl))
  exact signs.one_add.mul ((writtenWith_significands digit rfl rfl).mul exponents.one_add)

/-- A double is read from the longest number that a text begins with behind white space, and is zero
if there is none. Without its underscores, that number is always one that a double is read from.
Its whole part has the digits that an integer is read from in the same text. -/
theorem real_reads_longest_number (text : String) :
    ∃ blanks sign row rest, IsOpening text.toList blanks sign row rest ∧
      integerDigits false (row ++ rest) = row.filter Char.isDigit ∧
      integer text = Int64.ofInt
        ((integerDigits false (row ++ rest)).foldl (appendDigit (sign == ['-'])) 0) ∧
      ((leadingNumber? (Text.trimStart text.toList) = none ∧
          (∀ word ∈ numbers, ¬word <+: sign ++ (row ++ rest)) ∧
          real text = Binary64.ofNat 0) ∨
        ∃ fraction exponent number,
          leadingNumber? (Text.trimStart text.toList) =
            some (sign ++ (row ++ fraction ++ exponent)) ∧
          IsLongest numbers (sign ++ (row ++ fraction ++ exponent)) (sign ++ (row ++ rest)) ∧
          (fraction ∈ 1 + fractions ∧ exponent ∈ 1 + exponents) ∧
          (∀ char ∈ sign ++ (row ++ fraction ++ exponent), char.utf8Size = 1) ∧
          Binary64.read? (withoutUnderscores (sign ++ (row ++ fraction ++ exponent))) =
            some number ∧
          real text = number) := by
  obtain ⟨blanks, sign, row, rest, opening⟩ :
      ∃ blanks sign row rest, IsOpening text.toList blanks sign row rest :=
    ⟨_, _, _, _, IsOpening.of_text text.toList⟩
  have digits : integerDigits false (row ++ rest) = row.filter Char.isDigit := by
    rw [integerDigits_eq, opening.digitRow_eq]
  have taken := leadingNumber?_eq opening
  rw [← opening.trimStart_eq] at taken
  refine ⟨blanks, sign, row, rest, opening, digits, ?_, ?_⟩
  · rw [integer_eq_foldl opening, digits]
  by_cases present : row ++ (fractionPart rest).1 = []
  · rw [if_pos present] at taken
    refine .inl ⟨taken, opening.not_prefix_number present, ?_⟩
    rw [real, taken]
    rfl
  · rw [if_neg present] at taken
    have isFraction := (isLongest_fractionPart rest).mem
    have isExponent := (isLongest_exponentPart (fractionPart rest).2).mem
    have longest := opening.isLongest_number present
    obtain ⟨number, read⟩ :=
      exists_read? opening.sign.mem opening.row.mem isFraction isExponent present
    refine .inr ⟨_, _, number, taken, longest, ⟨isFraction, isExponent⟩,
      utf8Size_of_mem_numbers _ longest.mem, read, ?_⟩
    rw [real, taken]
    exact congrArg (·.getD (Binary64.ofNat 0)) read

/-- A mark without digits behind it is left behind, and so are two underscores. -/
example :
    leadingNumber? "-1_000.5e-3__4".toList = some "-1_000.5e-3".toList ∧
      leadingNumber? "2.e+".toList = some "2".toList := by
  decide

end Lenient

end XmlRecords
