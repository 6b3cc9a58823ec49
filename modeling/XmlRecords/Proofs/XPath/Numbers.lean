import XmlRecords.Proofs.Binary64.Counting
import XmlRecords.Proofs.Text.LenientReals
import XmlRecords.XPath.Lexeme
import XmlRecords.XPath.Value

/-! # Texts that are numbers

Four tests decide whether a text is a number: it is not empty, it consists of digits and points, it
has one point at most, and it is not a point alone. Together they describe the decimals with an
optional minus (`XPath.Denotes`). Every one of these is read as a double, which is a number, so that
a text is not a number just if it has another form (`XPath.numberOfText_by_grammar`).
-/

namespace XmlRecords

namespace Binary64

section Negation

open Float.Model

/-- A pattern stands for a number unless it has the greatest exponent and some mantissa. -/
theorem isNaN_unpack_packComponents {sign : UnpackedFloat.Sign}
    {exponent : BitVec Format.binary64.exponentBits}
    {mantissa : BitVec Format.binary64.mantissaBitsWithoutImplicit}
    (number : exponent ≠ -1#_ ∨ mantissa = 0#_) :
    (UnpackedFloat.unpack Format.binary64
      (UnpackedFloat.packComponents Format.binary64 sign exponent mantissa)).isNaN = false := by
  simp only [UnpackedFloat.unpack, UnpackedFloat.unpackExponent_packComponents,
    UnpackedFloat.unpackMantissa_packComponents]
  by_cases top : exponent = -1#_
  · rw [if_pos top, if_pos (number.resolve_left (not_not_intro top))]
    rfl
  · rw [if_neg top]
    split
    · split <;> rfl
    · rfl

theorem isNaN_unpack_pack {unpacked : UnpackedFloat} (number : unpacked.isNaN = false) :
    (UnpackedFloat.unpack Format.binary64
      (UnpackedFloat.pack Format.binary64 unpacked)).isNaN = false := by
  have low : (0#_ : BitVec Format.binary64.exponentBits) ≠ -1#_ := by decide
  cases unpacked with
  | notANumber => cases number
  | infinity sign => exact isNaN_unpack_packComponents (.inr rfl)
  | zero sign => exact isNaN_unpack_packComponents (.inl low)
  | finite sign mantissa exponent positive =>
      unfold UnpackedFloat.pack
      dsimp only
      split
      · exact isNaN_unpack_packComponents (.inr rfl)
      · rename_i small
        split
        · refine isNaN_unpack_packComponents (.inl fun top => small ?_)
          have same := congrArg BitVec.toNat top
          have greatest : (-1#_ : BitVec Format.binary64.exponentBits).toNat = 2047 := rfl
          have bits : (2 : Nat) ^ Format.binary64.exponentBits = 2048 := rfl
          rw [BitVec.toNat_ofNat, greatest, bits] at same
          rw [bits]
          omega
        · exact isNaN_unpack_packComponents (.inl low)

/-- The negative of a number is a number. -/
theorem isNaN_neg {number : Float} (isNumber : number.isNaN = false) :
    (-number).isNaN = false := by
  have negated : number.toModel.unpack.neg.isNaN = false := by
    change number.toModel.unpack.isNaN = false at isNumber
    cases unpacked : number.toModel.unpack with
    | notANumber => rw [unpacked] at isNumber; cases isNumber
    | _ => rfl
  exact isNaN_unpack_pack negated

end Negation

end Binary64

namespace XPath

section Form

/-- The text is a number without a sign: digits, with a point behind them, among them, before them,
or with none. These are its digits before and behind the point. -/
inductive IsDecimal : (whole fraction text : List Char) → Prop
  | plain {whole : List Char} (digits : Numeral.isDigits whole) (present : whole ≠ []) :
      IsDecimal whole [] whole
  | pointBehind {whole : List Char} (digits : Numeral.isDigits whole) (present : whole ≠ []) :
      IsDecimal whole [] (whole ++ ['.'])
  | pointAmong {whole fraction : List Char} (wholeDigits : Numeral.isDigits whole)
      (wholePresent : whole ≠ []) (fractionDigits : Numeral.isDigits fraction)
      (fractionPresent : fraction ≠ []) : IsDecimal whole fraction (whole ++ '.' :: fraction)
  | pointBefore {fraction : List Char} (digits : Numeral.isDigits fraction)
      (present : fraction ≠ []) : IsDecimal [] fraction ('.' :: fraction)

/-- The text is a number with an optional minus, and the double nearest to it is this one. -/
inductive Denotes : List Char → Float → Prop
  | unsigned {whole fraction text : List Char} (decimal : IsDecimal whole fraction text) :
      Denotes text (numberValue whole fraction)
  | minus {whole fraction text : List Char} (decimal : IsDecimal whole fraction text) :
      Denotes ('-' :: text) (-numberValue whole fraction)

/-- The text consists of digits and points, with one point at most and a digit at least. -/
structure IsPointedRow (text : List Char) : Prop where
  characters : ∀ char ∈ text, char.isDigit = true ∨ char = '.'
  points : text.count '.' ≤ 1
  digit : ∃ char ∈ text, char.isDigit = true

variable {whole fraction text : List Char}

theorem isPlainNumber_iff : isPlainNumber text = true ↔ IsPointedRow text := by
  simp only [isPlainNumber, Bool.and_eq_true, Bool.not_eq_true', List.isEmpty_eq_false_iff,
    List.all_eq_true, Bool.or_eq_true, decide_eq_true_eq, bne_iff_ne]
  constructor
  · rintro ⟨⟨⟨present, characters⟩, points⟩, proper⟩
    refine ⟨characters, points, ?_⟩
    -- Without a digit, there would be one point and nothing else.
    by_contra none
    have only : ∀ char ∈ text, char = '.' := fun char member =>
      (characters char member).resolve_left fun digit => none ⟨char, member, digit⟩
    have row := List.eq_replicate_of_mem only
    rw [row, List.count_replicate_self] at points
    have single : text.length = 1 := by
      have some := List.length_pos_iff.mpr present
      omega
    rw [single] at row
    exact proper row
  · rintro ⟨characters, points, char, member, digit⟩
    refine ⟨⟨⟨List.ne_nil_of_mem member, characters⟩, points⟩, ?_⟩
    rintro rfl
    rw [List.mem_singleton] at member
    subst member
    cases digit

theorem count_point (digits : Numeral.isDigits text) : text.count '.' = 0 := by
  refine List.count_eq_zero.mpr fun member => ?_
  have digit := List.all_eq_true.mp digits '.' member
  cases digit

theorem IsDecimal.isPointedRow (decimal : IsDecimal whole fraction text) : IsPointedRow text := by
  have inside {row : List Char} (digits : Numeral.isDigits row) :
      ∀ char ∈ row, char.isDigit = true ∨ char = '.' := fun char member =>
    .inl (List.all_eq_true.mp digits char member)
  have first {row : List Char} (digits : Numeral.isDigits row) (present : row ≠ []) :
      ∃ char ∈ row, char.isDigit = true := by
    obtain ⟨char, others, rfl⟩ := List.exists_cons_of_ne_nil present
    exact ⟨char, List.mem_cons_self, List.all_eq_true.mp digits char List.mem_cons_self⟩
  cases decimal with
  | plain digits present =>
      exact ⟨inside digits, (count_point digits).trans_le (Nat.zero_le 1), first digits present⟩
  | pointBehind digits present =>
      obtain ⟨char, member, digit⟩ := first digits present
      refine ⟨List.forall_mem_append.mpr ⟨inside digits, by simp⟩, ?_,
        char, List.mem_append_left _ member, digit⟩
      rw [List.count_append, count_point digits]
      decide
  | pointAmong wholeDigits wholePresent fractionDigits fractionPresent =>
      obtain ⟨char, member, digit⟩ := first wholeDigits wholePresent
      refine ⟨List.forall_mem_append.mpr ⟨inside wholeDigits,
        List.forall_mem_cons.mpr ⟨.inr rfl, inside fractionDigits⟩⟩, ?_,
        char, List.mem_append_left _ member, digit⟩
      rw [List.count_append, List.count_cons_self, count_point wholeDigits,
        count_point fractionDigits]
  | pointBefore digits present =>
      obtain ⟨char, member, digit⟩ := first digits present
      refine ⟨List.forall_mem_cons.mpr ⟨.inr rfl, inside digits⟩, ?_,
        char, List.mem_cons_of_mem _ member, digit⟩
      rw [List.count_cons_self, count_point digits]

/-- Digits and points make up a decimal: the first point is also the last one. -/
theorem IsPointedRow.exists_isDecimal (row : IsPointedRow text) :
    ∃ whole fraction, IsDecimal whole fraction text := by
  obtain ⟨characters, points, char, member, digit⟩ := row
  have whole := append_span Char.isDigit text
  have wholeDigits : Numeral.isDigits (text.span Char.isDigit).1 :=
    List.all_eq_true.mpr (of_mem_span Char.isDigit text)
  have stop := of_mem_head?_span Char.isDigit text
  generalize text.span Char.isDigit = parts at whole wholeDigits stop
  obtain ⟨whole, behind⟩ := parts
  subst whole
  cases behind with
  | nil =>
      rw [List.append_nil] at member ⊢
      exact ⟨whole, [], .plain wholeDigits (List.ne_nil_of_mem member)⟩
  | cons point fraction =>
      have mark : point = '.' := by
        refine (characters point (by simp)).resolve_left fun other => ?_
        exact Bool.false_ne_true ((stop point rfl).symm.trans other)
      subst mark
      rw [List.count_append, List.count_cons_self, count_point wholeDigits] at points
      have fractionDigits : Numeral.isDigits fraction := by
        refine List.all_eq_true.mpr fun char member => ?_
        refine (characters char (by simp [member])).resolve_right fun same => ?_
        have more := List.count_pos_iff.mpr (same ▸ member)
        omega
      by_cases noWhole : whole = []
      · subst noWhole
        have present : fraction ≠ [] := by
          rintro rfl
          rw [List.nil_append, List.mem_singleton] at member
          subst member
          cases digit
        exact ⟨[], fraction, .pointBefore fractionDigits present⟩
      · by_cases noFraction : fraction = []
        · subst noFraction
          exact ⟨whole, [], .pointBehind wholeDigits noWhole⟩
        · exact ⟨whole, fraction, .pointAmong wholeDigits noWhole fractionDigits noFraction⟩

/-- A text that a minus begins is no decimal. -/
theorem IsPointedRow.ne_minus (row : IsPointedRow text) : ∀ char ∈ text.head?, char ≠ '-' := by
  rintro char first rfl
  rcases row.characters '-' (List.mem_of_mem_head? first) with digit | point
  · cases digit
  · cases point

theorem withoutMinus_eq (row : IsPointedRow text) : withoutMinus text = text := by
  have other := row.ne_minus
  unfold withoutMinus
  split
  · exact absurd rfl (other '-' rfl)
  · rfl

/-- What is behind an optional minus. -/
theorem isPointedRow_withoutMinus_iff : IsPointedRow (withoutMinus text) ↔
    ∃ sign ∈ [[], ['-']], ∃ row, text = sign ++ row ∧ IsPointedRow row := by
  constructor
  · intro row
    unfold withoutMinus at row
    split at row
    · exact ⟨['-'], by simp, _, rfl, row⟩
    · exact ⟨[], by simp, text, rfl, row⟩
  · rintro ⟨sign, member, row, rfl, pointed⟩
    rw [List.mem_cons, List.mem_singleton] at member
    rcases member with rfl | rfl
    · rw [List.nil_append, withoutMinus_eq pointed]
      exact pointed
    · exact pointed

theorem exists_denotes_iff : (∃ value, Denotes text value) ↔ IsPointedRow (withoutMinus text) := by
  rw [isPointedRow_withoutMinus_iff]
  constructor
  · rintro ⟨_, decimal | decimal⟩
    · exact ⟨[], by simp, _, rfl, decimal.isPointedRow⟩
    · exact ⟨['-'], by simp, _, rfl, decimal.isPointedRow⟩
  · rintro ⟨sign, member, row, rfl, pointed⟩
    obtain ⟨whole, fraction, decimal⟩ := pointed.exists_isDecimal
    rw [List.mem_cons, List.mem_singleton] at member
    rcases member with rfl | rfl
    · exact ⟨_, .unsigned decimal⟩
    · exact ⟨_, .minus decimal⟩

end Form

section Reading

variable {whole fraction text behind : List Char}

/-- Digits before and behind a point are read as the double nearest to them. -/
theorem readDecimal?_of_span (isNegative : Bool)
    (parts : text.span Char.isDigit = (whole, behind))
    (fractionRead : Binary64.readFraction behind = (fraction, []))
    (present : whole ≠ [] ∨ fraction ≠ []) :
    Binary64.readDecimal? isNegative text =
      some (if isNegative then -numberValue whole fraction else numberValue whole fraction) := by
  have someDigit : ¬(whole.isEmpty && fraction.isEmpty) = true := by
    rw [Bool.and_eq_true, List.isEmpty_iff, List.isEmpty_iff, not_and_or]
    exact present
  simp only [Binary64.readDecimal?, parts, fractionRead, Binary64.readExponent?]
  rw [if_neg someDigit]
  simp only [Option.bind_eq_bind, Option.bind_some, zero_sub, numberValue]
  rfl

theorem IsDecimal.readDecimal?_eq (decimal : IsDecimal whole fraction text) (isNegative : Bool) :
    Binary64.readDecimal? isNegative text =
      some (if isNegative then -numberValue whole fraction else numberValue whole fraction) := by
  have row {digits rest : List Char} (isRow : Numeral.isDigits digits)
      (outside : ∀ char ∈ rest.head?, char.isDigit = false) :
      (digits ++ rest).span Char.isDigit = (digits, rest) :=
    span_append (List.all_eq_true.mp isRow) outside
  have ended {digits : List Char} (isRow : Numeral.isDigits digits) :
      digits.span Char.isDigit = (digits, []) := by
    have whole : (digits ++ []).span Char.isDigit = (digits, []) := row isRow nofun
    rwa [List.append_nil] at whole
  cases decimal with
  | plain digits present =>
      exact readDecimal?_of_span isNegative (ended digits) rfl (.inl present)
  | pointBehind digits present =>
      exact readDecimal?_of_span isNegative (row digits (forall_mem_head?_cons rfl)) rfl
        (.inl present)
  | pointAmong wholeDigits wholePresent fractionDigits fractionPresent =>
      exact readDecimal?_of_span isNegative (row wholeDigits (forall_mem_head?_cons rfl))
        (ended fractionDigits) (.inl wholePresent)
  | pointBefore digits present =>
      have point : ('.' :: fraction).span Char.isDigit = ([], '.' :: fraction) := rfl
      exact readDecimal?_of_span isNegative point (ended digits) (.inr present)

/-- Behind its sign, a decimal is none of the names of doubles. -/
theorem read?_of_readSign {isNegative : Bool} {rest : List Char}
    (sign : Binary64.readSign text = (isNegative, rest)) (decimal : IsDecimal whole fraction rest) :
    Binary64.read? text =
      some (if isNegative then -numberValue whole fraction else numberValue whole fraction) := by
  have row := decimal.isPointedRow
  have read := decimal.readDecimal?_eq isNegative
  obtain ⟨char, member, -⟩ := row.digit
  obtain ⟨first, others, rfl⟩ := List.exists_cons_of_ne_nil (List.ne_nil_of_mem member)
  have noLetter : first.isAlpha = false := by
    rcases row.characters first List.mem_cons_self with digit | rfl
    · exact Lenient.isAlpha_of_isDigit digit
    · rfl
  simp only [Binary64.read?, sign]
  rw [if_neg, if_neg, read]
  · exact Lenient.ofList_map_toLower_ne rfl rfl noLetter
  · apply not_or.mpr
    exact ⟨Lenient.ofList_map_toLower_ne rfl rfl noLetter,
      Lenient.ofList_map_toLower_ne rfl rfl noLetter⟩

theorem readSign_eq_of_isPointedRow (row : IsPointedRow text) :
    Binary64.readSign text = (false, text) := by
  have inside := row.characters
  unfold Binary64.readSign
  split
  · exact absurd rfl (row.ne_minus '-' rfl)
  · rcases inside '+' List.mem_cons_self with digit | point
    · cases digit
    · cases point
  · rfl

theorem Denotes.read?_eq {value : Float} (denotes : Denotes text value) :
    Binary64.read? text = some value := by
  cases denotes with
  | unsigned decimal =>
      exact read?_of_readSign (readSign_eq_of_isPointedRow decimal.isPointedRow) decimal
  | minus decimal => exact read?_of_readSign rfl decimal

/-- What a text denotes is a number, or it is infinite. -/
theorem Denotes.isNaN_eq {value : Float} (denotes : Denotes text value) :
    value.isNaN = false := by
  cases denotes with
  | unsigned decimal => exact (Binary64.nonneg_ofDecimal _ _).2
  | minus decimal => exact Binary64.isNaN_neg (Binary64.nonneg_ofDecimal _ _).2

end Reading

section Number

variable {text : String} {value : Float}

theorem numberOfText_of_denotes (denotes : Denotes (Text.trim text.toList) value) :
    numberOfText text = value := by
  have plain := isPlainNumber_iff.mpr (exists_denotes_iff.mp ⟨value, denotes⟩)
  simp only [numberOfText, if_pos plain, denotes.read?_eq, Option.getD_some]

theorem numberOfText_of_not_denotes (other : ∀ value, ¬Denotes (Text.trim text.toList) value) :
    numberOfText text = Binary64.notANumber := by
  have unplain : ¬isPlainNumber (withoutMinus (Text.trim text.toList)) = true := by
    rw [isPlainNumber_iff, ← exists_denotes_iff, not_exists]
    exact other
  simp only [numberOfText, if_neg unplain]

theorem Denotes.char_mem {text : List Char} (denotes : Denotes text value) :
    ∀ char ∈ text, char.isDigit = true ∨ char ∈ ['.', '-'] := by
  have inside {whole fraction text : List Char} (decimal : IsDecimal whole fraction text) :
      ∀ char ∈ text, char.isDigit = true ∨ char ∈ ['.', '-'] := fun char member =>
    (decimal.isPointedRow.characters char member).imp_right fun point => by simp [point]
  cases denotes with
  | unsigned decimal => exact inside decimal
  | minus decimal => exact List.forall_mem_cons.mpr ⟨.inr (by simp), inside decimal⟩

/-- A text is a number just if it is a decimal with an optional minus, white space around it left
out: digits and points behind the sign, one point at most and a digit at least. It is then read as a
double, which is its number. With any other character than digits, points and the minus it is not a
number. -/
theorem numberOfText_by_grammar (text : String) :
    ((numberOfText text).isNaN = false ↔ ∃ value, Denotes (Text.trim text.toList) value) ∧
      ((∃ value, Denotes (Text.trim text.toList) value) ↔
        ∃ sign ∈ [[], ['-']], ∃ row, Text.trim text.toList = sign ++ row ∧ IsPointedRow row) ∧
      (∀ value, Denotes (Text.trim text.toList) value →
        Binary64.read? (Text.trim text.toList) = some value ∧ numberOfText text = value) ∧
      ∀ char ∈ Text.trim text.toList, char.isDigit = false → char ∉ ['.', '-'] →
        (numberOfText text).isNaN = true := by
  have isNumber : (numberOfText text).isNaN = false ↔
      ∃ value, Denotes (Text.trim text.toList) value := by
    constructor
    · intro number
      by_contra none
      rw [numberOfText_of_not_denotes (not_exists.mp none)] at number
      cases number
    · rintro ⟨value, denotes⟩
      rw [numberOfText_of_denotes denotes]
      exact denotes.isNaN_eq
  refine ⟨isNumber, exists_denotes_iff.trans isPointedRow_withoutMinus_iff,
    fun value denotes => ⟨denotes.read?_eq, numberOfText_of_denotes denotes⟩, ?_⟩
  intro char member noDigit noMark
  by_contra number
  obtain ⟨value, denotes⟩ := isNumber.mp (Bool.eq_false_iff.mpr number)
  rcases denotes.char_mem char member with digit | mark
  · exact Bool.false_ne_true (noDigit.symm.trans digit)
  · exact noMark mark

/-- Half, below zero and with white space around it; an exponent is refused. -/
theorem numberOfText_by_grammar_half :
    (Denotes (Text.trim "\t-.5 ".toList) (-numberValue [] ['5']) ∧
        numberOfText "\t-.5 " = -numberValue [] ['5']) ∧
      ('e' ∈ Text.trim "1e3".toList ∧ 'e'.isDigit = false ∧ 'e' ∉ ['.', '-'] ∧
        (numberOfText "1e3").isNaN = true) := by
  have trimmed : Text.trim "\t-.5 ".toList = ['-', '.', '5'] := by decide +kernel
  have denotes : Denotes (Text.trim "\t-.5 ".toList) (-numberValue [] ['5']) := by
    rw [trimmed]
    exact .minus (.pointBefore rfl (by decide))
  have exponent : 'e' ∈ Text.trim "1e3".toList := by decide +kernel
  obtain ⟨-, -, reads, -⟩ := numberOfText_by_grammar "\t-.5 "
  obtain ⟨-, -, -, refuses⟩ := numberOfText_by_grammar "1e3"
  exact ⟨⟨denotes, (reads _ denotes).2⟩, exponent, rfl, by decide,
    refuses 'e' exponent rfl (by decide)⟩

end Number

end XPath

end XmlRecords
