import XmlRecords.Proofs.XPath.Agreement

/-! # Numbers at the end of a text

The digits behind the point of a number do not count where they end the text, and do so in front of
a closing parenthesis. All else is read in the same way, so that the expressions which are read
differ at most in a number that both of them end with. Inside of brackets no number ends the text,
and what is read there depends neither on what comes behind the brackets nor on the bound on the
depth.
-/

namespace XmlRecords

namespace XPath

section Completion

/-- The rest of a text begins anew: no digit and no point stands right before it. -/
def BeginsAnew (text rest : List Char) : Prop :=
  ∃ before, text = before ++ rest ∧ ∀ char ∈ before.getLast?, char.isDigit = false ∧ char ≠ '.'

/-- The text ends in a digit, a point and digits. -/
def EndsInDecimal (text : List Char) : Prop :=
  ∃ digit fraction, digit :: '.' :: fraction <:+ text ∧ digit.isDigit = true ∧
    Numeral.isDigits fraction = true ∧ fraction ≠ []

theorem outside_of_isSpace {char : Char} (space : isSpace char) :
    char.isDigit = false ∧ char ≠ '.' := by
  simp only [isSpace, Bool.or_eq_true, decide_eq_true_eq] at space
  obtain ((rfl | rfl) | rfl) | rfl := space <;> decide

namespace BeginsAnew

variable {text middle rest : List Char}

theorem refl (text : List Char) : BeginsAnew text text :=
  ⟨[], rfl, fun _ none => nomatch none⟩

/-- A word without digits and points is followed by a text that begins anew. -/
theorem of_word {word : List Char} (outside : ∀ char ∈ word, char.isDigit = false ∧ char ≠ '.')
    (rest : List Char) : BeginsAnew (word ++ rest) rest :=
  ⟨word, rfl, fun char last => outside char (List.mem_of_getLast? last)⟩

theorem suffix (anew : BeginsAnew text rest) : rest <:+ text := by
  obtain ⟨before, rfl, -⟩ := anew
  exact List.suffix_append before rest

/-- If nothing has been read in the second part, the first one decides what stands before the rest.
-/
theorem trans (first : BeginsAnew text middle) (second : BeginsAnew middle rest) :
    BeginsAnew text rest := by
  obtain ⟨front, rfl, outside⟩ := first
  obtain ⟨before, rfl, outsideBefore⟩ := second
  refine ⟨front ++ before, (List.append_assoc front before rest).symm, ?_⟩
  by_cases empty : before = []
  · rwa [empty, List.append_nil]
  · rwa [List.getLast?_append_of_ne_nil front empty]

/-- Whether the rest begins anew can be told from any part of the text before it. -/
theorem of_suffix (anew : BeginsAnew middle rest) (shorter : rest.length < middle.length)
    (suffix : middle <:+ text) : BeginsAnew text rest := by
  obtain ⟨front, rfl⟩ := suffix
  obtain ⟨before, rfl, outside⟩ := anew
  have present : before ≠ [] := by
    rintro rfl
    exact absurd shorter (Nat.lt_irrefl _)
  refine ⟨front ++ before, (List.append_assoc front before rest).symm, ?_⟩
  rwa [List.getLast?_append_of_ne_nil front present]

/-- White space is neither a digit nor a point. -/
theorem skipSpace (text : List Char) : BeginsAnew text (skipSpace text) := by
  have outside : ∀ char ∈ text.takeWhile isSpace, char.isDigit = false ∧ char ≠ '.' :=
    fun char member => outside_of_isSpace (List.mem_takeWhile_imp member)
  have anew := of_word outside (text.dropWhile isSpace)
  rwa [List.takeWhile_append_dropWhile] at anew

end BeginsAnew

namespace EndsInDecimal

variable {text rest : List Char}

/-- A number at the end of the text is not cut by a rest that begins anew. -/
theorem of_beginsAnew (ends : EndsInDecimal text) (anew : BeginsAnew text rest) :
    EndsInDecimal rest := by
  obtain ⟨digit, fraction, suffix, isDigit, digits, present⟩ := ends
  refine ⟨digit, fraction, ?_, isDigit, digits, present⟩
  rcases List.suffix_or_suffix_of_suffix suffix anew.suffix with inside | ⟨cut, whole⟩
  · exact inside
  · rw [← whole]
    cases cut using List.reverseRecOn with
    | nil => exact List.suffix_refl rest
    | append_singleton before char =>
        -- The character before the rest would be one of the number.
        exfalso
        obtain ⟨front, rfl, outside⟩ := anew
        obtain ⟨more, same⟩ := suffix
        rw [← whole, ← List.append_assoc, ← List.append_assoc] at same
        have last := List.append_cancel_right same
        have stands := outside char (by rw [← last, List.getLast?_concat]; rfl)
        have member : char ∈ digit :: '.' :: fraction := by
          rw [← whole]
          exact List.mem_append_left _ (List.mem_concat_self)
        rcases List.mem_cons.mp member with rfl | member
        · exact Bool.false_ne_true (stands.1.symm.trans isDigit)
        · rcases List.mem_cons.mp member with same | member
          · exact stands.2 same
          · have other := List.all_eq_true.mp digits char member
            exact Bool.false_ne_true (stands.1.symm.trans other)

/-- The last digit of the fraction ends the text. -/
theorem isDigit_of_getLast? (ends : EndsInDecimal text) :
    ∀ char ∈ text.getLast?, char.isDigit = true := by
  obtain ⟨digit, fraction, ⟨front, rfl⟩, -, digits, present⟩ := ends
  intro char last
  rw [List.append_cons, List.append_cons, List.getLast?_append_of_ne_nil _ present] at last
  exact List.all_eq_true.mp digits char (List.mem_of_getLast? last)

/-- A text that ends in something else does not end in such a number. -/
theorem not_of_suffix {tail : List Char} (present : tail ≠ [])
    (outside : ∀ char ∈ tail, char.isDigit = false) (suffix : tail <:+ text) :
    ¬EndsInDecimal text := by
  intro ends
  obtain ⟨front, rfl⟩ := suffix
  have isDigit := ends.isDigit_of_getLast? (tail.getLast present) (by
    rw [List.getLast?_append_of_ne_nil front present, List.getLast?_eq_some_getLast present]
    rfl)
  rw [outside _ (List.getLast_mem present)] at isDigit
  cases isDigit

end EndsInDecimal

/-- An expression whose last part is a number that ends the text, without and with its digits behind
the point. -/
inductive Completes (text : List Char) : Expression → Expression → Prop
  | number {whole fraction : List Char} (ends : BeginsAnew text (whole ++ '.' :: fraction))
      (wholeDigits : Numeral.isDigits whole) (wholePresent : whole ≠ [])
      (fractionDigits : Numeral.isDigits fraction) (fractionPresent : fraction ≠ []) :
      Completes text (.number (numberValue whole [])) (.number (numberValue whole fraction))
  | binary {operator : Operator} {left right final : Expression}
      (last : Completes text right final) :
      Completes text (.binary operator left right) (.binary operator left final)
  | negate {operand final : Expression} (last : Completes text operand final) :
      Completes text (.negate operand) (.negate final)

/-- The last part of the expression is a number. -/
def Expression.endsInNumber : Expression → Bool
  | .number _ => true
  | .binary _ _ right => right.endsInNumber
  | .negate operand => operand.endsInNumber
  | _ => false

/-- The last part of the expression is not a number that ends the text with digits on both sides of
its point. -/
def Settled (text : List Char) (expression : Expression) : Prop :=
  expression.endsInNumber = true → ¬EndsInDecimal text

section Ends

variable {text rest : List Char} {expression final : Expression}

/-- The number that is completed stands at the end of the text, whatever is in front of it. -/
theorem Completes.mono (completes : Completes rest expression final)
    (anew : BeginsAnew text rest) : Completes text expression final := by
  induction completes with
  | number ends wholeDigits wholePresent fractionDigits fractionPresent =>
      exact .number (anew.trans ends) wholeDigits wholePresent fractionDigits fractionPresent
  | binary _ ih => exact .binary ih
  | negate _ ih => exact .negate ih

/-- A number with digits on both sides of the point that ends the text would be in the rest. -/
theorem Settled.mono (settled : Settled rest expression) (anew : BeginsAnew text rest) :
    Settled text expression :=
  fun number ends => settled number (ends.of_beginsAnew anew)

/-- Only a number that ends the text with digits on both sides of its point is completed. -/
theorem Completes.ends (completes : Completes text expression final) :
    expression.endsInNumber = true ∧ EndsInDecimal text := by
  induction completes with
  | @number whole fraction ends wholeDigits wholePresent fractionDigits fractionPresent =>
      have last := List.dropLast_concat_getLast wholePresent
      have digit := List.all_eq_true.mp wholeDigits _ (List.getLast_mem wholePresent)
      refine ⟨rfl, whole.getLast wholePresent, fraction, ?_, digit, fractionDigits,
        fractionPresent⟩
      refine List.IsSuffix.trans ⟨whole.dropLast, ?_⟩ ends.suffix
      rw [List.append_cons, last]
  | binary _ ih => exact ih
  | negate _ ih => exact ih

end Ends

theorem isDigits_span (text : List Char) : Numeral.isDigits (text.span Char.isDigit).1 :=
  List.all_eq_true.mpr (of_mem_span Char.isDigit text)

/-- Behind the first digits of a text come a point and digits, which end the text. -/
def IsLastDecimal (digits behind : List Char) : Prop :=
  ∃ fraction, behind = '.' :: fraction ∧ digits ≠ [] ∧ fraction ≠ [] ∧
    Numeral.isDigits fraction = true

/-- Where the digits behind a point end the text, there are none if the text is no such number. -/
theorem span_of_not_isLastDecimal {digits rest : List Char}
    (plain : ¬IsLastDecimal digits ('.' :: rest)) (present : digits ≠ [])
    (ended : (rest.span Char.isDigit).2 = []) : (rest.span Char.isDigit).1 = [] := by
  by_contra fractionPresent
  have row := append_span Char.isDigit rest
  have rowDigits := isDigits_span rest
  rw [ended, List.append_nil] at row
  rw [row] at fractionPresent rowDigits
  exact plain ⟨rest, rfl, present, fractionPresent, rowDigits⟩

/-- What is no number with a point and digits at the end of the text is read in the same way in
front of more text. -/
theorem Follows.readNumber_extended {more : List Char} {least : Int} (follows : Follows more least)
    {text digits behind : List Char} (deep : least ≤ surplus text)
    (parts : text.span Char.isDigit = (digits, behind)) (plain : ¬IsLastDecimal digits behind) :
    readNumber (text ++ more) = (readNumber text).map (extended more) := by
  have other : ∀ char ∈ [')', ']'], char.isDigit = false := forall_mem_of_all (by decide)
  have whole := follows.span_extended deep Char.isDigit other
  have leaves := (leaves_span Char.isDigit (forall_mem_of_all (by decide)) text).surplus_eq
  rw [parts] at leaves
  dsimp only at leaves
  unfold readNumber
  rw [whole, parts]
  cases behind with
  | nil =>
      rw [surplus_nil] at leaves
      rw [follows.eq_of_nonpos (by omega)]
      cases digits <;> rfl
  | cons char rest =>
      by_cases point : char = '.'
      · subst point
        have past := (leaves_char (by decide : '.' ∉ scanned) rest).surplus_eq
        have onward : least ≤ surplus rest := by omega
        have fraction := follows.span_extended onward Char.isDigit other
        have ended := span_of_not_isLastDecimal plain
        simp only [List.cons_append] at fraction ⊢
        cases digits with
        | nil =>
            simp only [fraction]
            generalize rest.span Char.isDigit = pair
            obtain ⟨_ | ⟨digit, more⟩, after⟩ := pair <;> rfl
        | cons digit others =>
            have last := (leaves_span Char.isDigit (forall_mem_of_all (by decide)) rest).surplus_eq
            simp only [fraction]
            generalize rest.span Char.isDigit = pair at ended last
            obtain ⟨row, _ | ⟨next, after⟩⟩ := pair
            · obtain rfl := ended (List.cons_ne_nil digit others) rfl
              dsimp only at last
              rw [surplus_nil] at last
              rw [follows.eq_of_nonpos (by omega)]
              rfl
            · rfl
      · cases digits <;> simp [extended, point]

/-- The digits behind a point at the end of the text do not count, but do so in front of a closing
parenthesis. -/
theorem readNumber_final {whole fraction : List Char} (wholeDigits : Numeral.isDigits whole)
    (wholePresent : whole ≠ []) (fractionDigits : Numeral.isDigits fraction)
    (fractionPresent : fraction ≠ []) :
    readNumber (whole ++ '.' :: fraction) = some (numberValue whole [], []) ∧
      readNumber (closed (whole ++ '.' :: fraction)) =
        some (numberValue whole fraction, [')']) := by
  have row : ∀ rest, (whole ++ '.' :: rest).span Char.isDigit = (whole, '.' :: rest) := fun rest =>
    span_append (List.all_eq_true.mp wholeDigits) (forall_mem_head?_cons (by decide))
  have inner : ∀ rest, (∀ char ∈ rest.head?, char.isDigit = false) →
      (fraction ++ rest).span Char.isDigit = (fraction, rest) := fun rest outside =>
    span_append (List.all_eq_true.mp fractionDigits) outside
  have ended := inner [] fun _ member => nomatch member
  have shutBehind := inner [')'] (forall_mem_head?_cons (by decide))
  have text : closed (whole ++ '.' :: fraction) = whole ++ '.' :: (fraction ++ [')']) :=
    List.append_assoc whole _ _
  rw [text]
  obtain ⟨digit, more, rfl⟩ := List.exists_cons_of_ne_nil wholePresent
  obtain ⟨next, others, rfl⟩ := List.exists_cons_of_ne_nil fractionPresent
  rw [List.append_nil] at ended
  constructor
  · rw [readNumber, row]
    simp only [ended]
  · rw [readNumber, row]
    simp only [shutBehind]

/-- Digits behind a point that end the text leave no bracket to close. -/
theorem surplus_number {whole fraction : List Char} (wholeDigits : Numeral.isDigits whole)
    (fractionDigits : Numeral.isDigits fraction) : surplus (whole ++ '.' :: fraction) = 0 := by
  have plain : ∀ {row : List Char}, Numeral.isDigits row → ∀ char ∈ row, char ∉ scanned := by
    intro row digits char member mark
    have other : ∀ char ∈ scanned, char.isDigit = false := forall_mem_of_all (by decide)
    exact Bool.false_ne_true ((other char mark).symm.trans (List.all_eq_true.mp digits char member))
  refine surplus_eq_zero fun char member => ?_
  rcases List.mem_append.mp member with inWhole | _ | ⟨_, inFraction⟩
  · exact plain wholeDigits char inWhole
  · decide
  · exact plain fractionDigits char inFraction

/-- Digits behind a point reach the end of a text that is one number. -/
theorem span_of_readNumber {text digits rest : List Char} {value : Float}
    (read : readNumber text = some (value, []))
    (parts : text.span Char.isDigit = (digits, '.' :: rest)) :
    (rest.span Char.isDigit).2 = [] := by
  rw [readNumber, parts] at read
  cases digits with
  | nil =>
      simp only at read
      generalize rest.span Char.isDigit = pair at read ⊢
      obtain ⟨_ | ⟨first, row⟩, after⟩ := pair
      · cases read
      · cases read
        rfl
  | cons first digits =>
      simp only at read
      generalize rest.span Char.isDigit = pair at read ⊢
      obtain ⟨row, _ | ⟨next, after⟩⟩ := pair
      · rfl
      · cases read

/-- A text that is one number ends in digits with a point before them, and a digit before the point,
only if it is read so. -/
theorem not_endsInDecimal_of_readNumber {text digits behind : List Char} {value : Float}
    (read : readNumber text = some (value, []))
    (parts : text.span Char.isDigit = (digits, behind)) (plain : ¬IsLastDecimal digits behind) :
    ¬EndsInDecimal text := by
  rintro ⟨digit, fraction, ⟨front, same⟩, -, fractionDigits, present⟩
  have whole := append_span Char.isDigit text
  have wholeDigits := isDigits_span text
  rw [parts] at whole wholeDigits
  dsimp only at whole wholeDigits
  have pointless {row : List Char} (isRow : Numeral.isDigits row) : '.' ∉ row := fun member =>
    absurd (List.all_eq_true.mp isRow '.' member) (by decide)
  cases behind with
  | nil =>
      -- The whole text is a row of digits.
      rw [List.append_nil, ← same] at whole
      refine pointless wholeDigits ?_
      rw [whole]
      exact List.mem_append_right _ (List.mem_cons_of_mem _ List.mem_cons_self)
  | cons char rest =>
      by_cases point : char = '.'
      · subst point
        have ended := span_of_readNumber read parts
        have row := append_span Char.isDigit rest
        rw [ended, List.append_nil] at row
        have rowDigits := isDigits_span rest
        rw [row] at rowDigits
        have split : digits ++ '.' :: rest = (front ++ [digit]) ++ '.' :: fraction := by
          rw [whole, ← same, ← List.append_cons]
        obtain ⟨left, -, right⟩ := (List.append_cons_inj_of_notMem (pointless wholeDigits)
          (pointless rowDigits)).mp split
        refine plain ⟨rest, rfl, ?_, right ▸ present, rowDigits⟩
        rw [left]
        exact List.concat_ne_nil _ _
      · unfold readNumber at read
        rw [parts] at read
        cases digits <;> simp [point] at read

/-- A number is changed just if it ends the text with digits on both sides of its point. The whole
part and the fraction are told apart as the reader does it. -/
theorem readNumber_agrees {more : List Char} {least : Int} (follows : Follows more least)
    {text : List Char} (deep : least ≤ surplus text) :
    Agrees more (Settled text) (Completes text)
      ((readNumber text).map fun taken => (Expression.number taken.1, taken.2))
      ((readNumber (text ++ more)).map fun taken => (Expression.number taken.1, taken.2)) := by
  have whole := append_span Char.isDigit text
  have wholeDigits := isDigits_span text
  cases parts : text.span Char.isDigit with
  | mk digits behind =>
      rw [parts] at whole wholeDigits
      by_cases final : IsLastDecimal digits behind
      · obtain ⟨fraction, rfl, wholePresent, fractionPresent, fractionDigits⟩ := final
        subst whole
        cases follows with
        | anything =>
            rw [surplus_number wholeDigits fractionDigits] at deep
            omega
        | parenthesis =>
            obtain ⟨alone, before⟩ :=
              readNumber_final wholeDigits wholePresent fractionDigits fractionPresent
            rw [closed] at before
            rw [alone, before]
            exact .changed (.number (.refl _) wholeDigits wholePresent fractionDigits
              fractionPresent)
      · refine .of_eq
          (map_extended (follows.readNumber_extended deep parts final) Expression.number) ?_
        intro expression number _
        obtain ⟨taken, read, same⟩ := Option.map_eq_some_iff.mp number
        have alone : readNumber text = some (taken.1, []) := by
          rw [read, ← (Prod.mk.inj same).2]
        exact not_endsInDecimal_of_readNumber alone parts final

variable {nested other : Reader Expression} {more text : List Char} {least : Int} {bound : Nat}

/-- What is not a number by itself does not end in one, but for one in parentheses, which are closed
behind it. -/
theorem settled_of_other (balanced : TakesBalanced nested) {value : Expression}
    (read : ((readLiteral text).map (fun taken => (Expression.literal taken.1, taken.2))
      <|> readCall nested text <|> readGroup nested text <|> readPath nested text) =
        some (value, [])) : Settled text value := by
  simp only [Option.orElse_eq_orElse, Option.orElse_eq_or, Option.or_eq_some_iff,
    Option.map_eq_some_iff, Prod.mk.injEq] at read
  rcases read with ⟨_, _, rfl, _⟩ | ⟨-, call | ⟨-, group | ⟨-, path⟩⟩⟩
  · exact fun number => absurd number Bool.false_ne_true
  · simp only [readCall, Option.bind_eq_bind, Option.bind_eq_some_iff, Option.pure_def,
      Option.some.injEq, Prod.mk.injEq] at call
    obtain ⟨_, _, _, _, _, _, _, _, rfl, _⟩ := call
    exact fun number => absurd number Bool.false_ne_true
  · simp only [readGroup, Option.bind_eq_bind, Option.bind_eq_some_iff, Option.pure_def,
      Option.some.injEq, Prod.mk.injEq] at group
    obtain ⟨_, opened, taken, content, _, closed, -, rfl⟩ := group
    -- The parenthesis and the white space behind it end the text.
    obtain ⟨behind, mark, blank⟩ := Option.map_eq_some_iff.mp closed
    have closing : skipSpace taken.2 = ')' :: behind := after?_eq_some_iff.mp mark
    have inside : ')' :: behind <:+ text := by
      rw [← closing]
      exact ((leaves_skipSpace taken.2).suffix.trans (balanced _ _ _ content).suffix).trans
        (leaves_opening opened (by decide)).suffix
    refine fun _ => EndsInDecimal.not_of_suffix (List.cons_ne_nil _ _) (fun char member => ?_)
      inside
    rcases List.mem_cons.mp member with rfl | member
    · rfl
    · exact (outside_of_isSpace (List.dropWhile_eq_nil_iff.mp blank char member)).1
  · simp only [readPath, Option.bind_eq_bind, Option.bind_eq_some_iff, Option.pure_def,
      Option.some.injEq, Prod.mk.injEq] at path
    obtain ⟨_, _, rfl, _⟩ := path
    exact fun number => absurd number Bool.false_ne_true

/-- Of the primary expressions, only numbers are changed. All others are read in front of a bracket
as they are. -/
theorem Continues.primary (continues : Continues nested other more least bound)
    (within : Within (bound + 1) least text) :
    Agrees more (Settled text) (Completes text) (readPrimary nested text)
      (readPrimary other (text ++ more)) := by
  have follows := continues.follows
  refine (readNumber_agrees follows within.deep).orElse ?_
    fun value => settled_of_other continues.balanced
  refine orElse_extended
    (map_extended (follows.readLiteral_extended within.deep) Expression.literal) ?_
  refine orElse_extended (continues.call within) ?_
  exact orElse_extended (continues.group within) (continues.path within)

theorem Continues.term (continues : Continues nested other more least bound)
    (within : Within (bound + 1) least text) :
    Agrees more (Settled text) (Completes text) (readTerm nested text)
      (readTerm other (text ++ more)) := by
  have leaves := leaves_skipSpace text
  have inside := within.leaves leaves
  have primary := continues.primary inside
  rw [readTerm, readTerm, continues.follows.skipSpace_extended within.deep]
  cases read : readPrimary nested (skipSpace text) with
  | none =>
      rw [read] at primary
      generalize readPrimary other (skipSpace text ++ more) = second at primary ⊢
      cases primary
      exact .fails
  | some taken =>
      have deep := (inside.leaves (balanced_primary continues.balanced _ _ _ read)).deep
      rw [read] at primary
      generalize readPrimary other (skipSpace text ++ more) = second at primary ⊢
      cases primary with
      | same value rest final =>
          simp only [Option.map_some, continues.follows.skipSpace_extended deep]
          refine .same value (skipSpace rest) fun ended => ?_
          by_cases atEnd : rest = []
          · exact (final atEnd).mono (.skipSpace text)
          · -- White space ends the text.
            refine fun _ => EndsInDecimal.not_of_suffix atEnd (fun char member => ?_)
              ((balanced_primary continues.balanced _ _ _ read).suffix.trans leaves.suffix)
            exact (outside_of_isSpace (List.dropWhile_eq_nil_iff.mp ended char member)).1
      | changed changes =>
          have shut : skipSpace more = more := continues.follows.skipSpace_extended deep
          simp only [Option.map_some, shut]
          exact .changed (changes.mono (.skipSpace text))

/-- What is read of an operator does not depend on what comes behind the text. -/
structure IsToken (operator : Reader Operator) : Prop where
  balanced : TakesBalanced operator
  shorter : ∀ text symbol rest, operator text = some (symbol, rest) → rest.length < text.length
  anew : ∀ text symbol rest, operator text = some (symbol, rest) → BeginsAnew text rest
  extended : ∀ more text least, Follows more least → least ≤ surplus text →
    operator (text ++ more) = (operator text).map (extended more)

section Chains

variable {operator : Reader Operator} {operand another : Reader Expression}

/-- An operator is read in the text, and what stands behind it begins anew. -/
theorem operand_agrees (token : IsToken operator) (follows : Follows more least)
    (agrees : ∀ text, Within bound least text →
      Agrees more (Settled text) (Completes text) (operand text) (another (text ++ more)))
    {rest : List Char} (within : Within bound least rest) (suffix : rest <:+ text) :
    Agrees more (fun value => Settled text value.2)
      (fun first second => first.1 = second.1 ∧ Completes text first.2 second.2)
      (readOperand operator operand rest) (readOperand operator another (rest ++ more)) := by
  have leaves := leaves_skipSpace rest
  have inside := within.leaves leaves
  rw [readOperand, readOperand, follows.skipSpace_extended within.deep,
    token.extended _ _ _ follows inside.deep]
  cases symbolRead : operator (skipSpace rest) with
  | none => exact .fails
  | some taken =>
      have behind := leaves.trans (token.balanced _ _ _ symbolRead)
      have onward := behind.trans (leaves_skipSpace taken.2)
      have right := agrees (skipSpace taken.2) (within.leaves onward)
      have anew : BeginsAnew text (skipSpace taken.2) := by
        have behindSymbol := (token.anew _ _ _ symbolRead).trans (.skipSpace taken.2)
        have less := token.shorter _ _ _ symbolRead
        have left := length_skipSpace_le taken.2
        exact behindSymbol.of_suffix (by omega) (leaves.suffix.trans suffix)
      simp only [Option.map_some, Option.bind_eq_bind, Option.bind_some, extended,
        follows.skipSpace_extended (within.leaves behind).deep]
      generalize operand (skipSpace taken.2) = first at right ⊢
      generalize another (skipSpace taken.2 ++ more) = second at right ⊢
      cases right with
      | fails => exact .fails
      | same value rest final =>
          exact .same (taken.1, value) rest fun ended => (final ended).mono anew
      | changed changes => exact .changed ⟨rfl, changes.mono anew⟩

theorem length_lt_of_readOperand (token : IsToken operator) (balanced : TakesBalanced operand)
    {text rest : List Char} {value : Operator × Expression}
    (read : readOperand operator operand text = some (value, rest)) :
    rest.length < text.length := by
  simp only [readOperand, Option.bind_eq_bind, Option.bind_eq_some_iff, Option.pure_def,
    Option.some.injEq, Prod.mk.injEq] at read
  obtain ⟨taken, symbol, _, right, -, rfl⟩ := read
  have before := length_skipSpace_le text
  have less := token.shorter _ _ _ symbol
  have between := length_skipSpace_le taken.2
  have onward := (balanced _ _ _ right).length_le
  omega

/-- Only the last operand of a chain reaches the end of the text. -/
theorem many_operand_agrees (token : IsToken operator) (follows : Follows more least)
    (balanced : TakesBalanced operand)
    (agrees : ∀ text, Within bound least text →
      Agrees more (Settled text) (Completes text) (operand text) (another (text ++ more)))
    {rest : List Char} (within : Within bound least rest) (suffix : rest <:+ text) :
    (many (readOperand operator another) (rest ++ more) =
        extended more (many (readOperand operator operand) rest) ∧
      ((many (readOperand operator operand) rest).2 = [] →
        ∀ value ∈ (many (readOperand operator operand) rest).1.getLast?, Settled text value.2)) ∨
      ∃ before symbol right final,
        many (readOperand operator operand) rest = (before ++ [(symbol, right)], []) ∧
          many (readOperand operator another) (rest ++ more) =
            (before ++ [(symbol, final)], more) ∧ Completes text right final := by
  have repeats := Repeats.of_many (fun _ _ _ => length_lt_of_readOperand token balanced) rest
  have kept : ∀ rest value behind, (Within bound least rest ∧ rest <:+ text) →
      readOperand operator operand rest = some (value, behind) →
        Within bound least behind ∧ behind <:+ text := by
    intro rest value behind here read
    have leaves := balanced_operand token.balanced balanced _ _ _ read
    exact ⟨here.1.leaves leaves, leaves.suffix.trans here.2⟩
  rcases repeats_agree kept (fun _ here => operand_agrees token follows agrees here.1 here.2)
      repeats ⟨within, suffix⟩ with
    ⟨same, settled⟩ |
      ⟨ended, before, ⟨symbol, right⟩, ⟨other, final⟩, taken, ⟨rfl, completes⟩, changed⟩
  · exact .inl ⟨same.many_eq, settled⟩
  · exact .inr ⟨before, symbol, right, final, Prod.ext taken ended, changed.many_eq, completes⟩

/-- A chain ends in what its last operand ends in. -/
theorem settled_chain {first : Expression} {tail : List (Operator × Expression)}
    (alone : tail = [] → Settled text first)
    (last : ∀ value ∈ tail.getLast?, Settled text value.2) :
    Settled text (tail.foldl (fun left (symbol, right) => .binary symbol left right) first) := by
  cases tail using List.reverseRecOn with
  | nil => exact alone rfl
  | append_singleton before value =>
      rw [List.foldl_append]
      exact last value List.getLast?_concat

/-- An operand that is changed is the last one of its chain, since the text ends behind it. -/
theorem chain_agrees (token : IsToken operator) (follows : Follows more least)
    (balanced : TakesBalanced operand)
    (agrees : ∀ text, Within bound least text →
      Agrees more (Settled text) (Completes text) (operand text) (another (text ++ more)))
    (within : Within bound least text) :
    Agrees more (Settled text) (Completes text) (readChain operator operand text)
      (readChain operator another (text ++ more)) := by
  have first := agrees text within
  rw [readChain, readChain]
  cases read : operand text with
  | none =>
      rw [read] at first
      generalize another (text ++ more) = second at first ⊢
      cases first
      exact .fails
  | some taken =>
      have leaves := balanced _ _ _ read
      have behind := many_operand_agrees token follows balanced agrees (within.leaves leaves)
        leaves.suffix
      rw [read] at first
      generalize another (text ++ more) = second at first ⊢
      cases first with
      | same value rest final =>
          rcases behind with ⟨same, settled⟩ |
            ⟨before, symbol, right, final, alone, inside, completes⟩
          · simp only [Option.bind_eq_bind, Option.bind_some, same]
            refine .same _ _ fun ended => settled_chain (fun single => final ?_) (settled ended)
            -- Without an operator the first operand is the whole text.
            have repeats := Repeats.of_many
              (fun _ _ _ => length_lt_of_readOperand token balanced) rest
            rw [single, ended] at repeats
            cases repeats
            rfl
          · simp only [Option.bind_eq_bind, Option.bind_some, alone, inside, List.foldl_append,
              List.foldl_cons, List.foldl_nil]
            exact .changed (.binary completes)
      | changed changes =>
          have stop : many (readOperand operator operand) [] = ([], []) := rfl
          rcases behind with ⟨same, _⟩ | ⟨before, symbol, right, final, alone, -⟩
          · simp only [stop, extended, List.nil_append] at same
            simp only [Option.bind_eq_bind, Option.bind_some, same, stop]
            exact .changed changes
          · rw [stop] at alone
            simp at alone

end Chains

theorem length_symbol (operator : Operator) : 0 < operator.symbol.toList.length := by
  cases operator with
  | compare comparison => cases comparison <;> decide
  | _ => decide

/-- Operators are neither numbers nor points, so a number behind one is read from its beginning. -/
theorem outside_symbol (operator : Operator) :
    ∀ char ∈ operator.symbol.toList, char.isDigit = false ∧ char ≠ '.' := by
  have checked : operator.symbol.toList.all fun char => !char.isDigit && decide (char ≠ '.') := by
    cases operator with
    | compare comparison => cases comparison <;> rfl
    | _ => rfl
  intro char member
  obtain ⟨noDigit, noPoint⟩ := Bool.and_eq_true_iff.mp (List.all_eq_true.mp checked char member)
  exact ⟨Bool.not_eq_eq_eq_not.mp noDigit, of_decide_eq_true noPoint⟩

/-- Behind an operator the text begins anew. -/
theorem beginsAnew_symbol (operator : Operator) {text rest : List Char}
    (read : readSymbol operator.symbol text = some rest) : BeginsAnew text rest := by
  rw [after?_eq_some_iff.mp read]
  exact .of_word (outside_symbol operator) rest

theorem isToken_oneOf (operators : List Operator) :
    IsToken (readOneOf Operator.symbol operators) := by
  have plain : ∀ operator ∈ operators, isPlain operator.symbol.toList := fun operator _ =>
    isPlain_symbol operator
  refine ⟨balanced_oneOf plain, fun text symbol rest read => ?_, fun text symbol rest read => ?_,
    fun more text least follows deep => follows.readOneOf_extended deep plain⟩
  · exact length_lt_of_readSymbol (readSymbol_of_readOneOf read).2 (length_symbol symbol)
  · exact beginsAnew_symbol symbol (readSymbol_of_readOneOf read).2

theorem readSymbol_of_readKeyword {keyword : String} {text rest : List Char}
    (read : readKeyword keyword text = some rest) : readSymbol keyword text = some rest := by
  unfold readKeyword at read
  split at read
  · cases read
  · rename_i word
    cases read
    exact word
  · rename_i word
    split at read
    · cases read
    · cases read
      exact word

/-- A word that is an operator is a symbol that no character of names follows. -/
theorem isToken_word (operator : Operator) : IsToken (readWordOperator operator) := by
  have symbolRead {text rest : List Char} {symbol : Operator}
      (read : readWordOperator operator text = some (symbol, rest)) :
      readSymbol operator.symbol text = some rest := by
    obtain ⟨_, word, same⟩ := Option.map_eq_some_iff.mp read
    rw [← (Prod.mk.inj same).2]
    exact readSymbol_of_readKeyword word
  refine ⟨balanced_keyword (isPlain_symbol operator), ?_, ?_, ?_⟩
  · exact fun _ _ _ read => length_lt_of_readSymbol (symbolRead read) (length_symbol operator)
  · exact fun _ _ _ read => beginsAnew_symbol operator (symbolRead read)
  · intro more text least follows deep
    exact map_symbol_extended (follows.readKeyword_extended deep (isPlain_symbol operator)) operator

theorem isToken_operator (operator : Operator) : IsToken (readOperator operator.level) := by
  cases operator with
  | or => exact isToken_word .or
  | and => exact isToken_word .and
  | compare comparison => cases comparison <;> exact isToken_oneOf _
  | _ => exact isToken_oneOf _

/-- A number behind signs is completed there. -/
theorem Completes.negate_all {expression final : Expression}
    (completes : Completes text expression final) (signs : List Unit) :
    Completes text (signs.foldr (fun _ negated => .negate negated) expression)
      (signs.foldr (fun _ negated => .negate negated) final) := by
  induction signs with
  | nil => exact completes
  | cons sign signs ih => exact .negate ih

theorem Settled.negate_all {expression : Expression} (settled : Settled text expression)
    (signs : List Unit) :
    Settled text (signs.foldr (fun _ negated => .negate negated) expression) := by
  induction signs with
  | nil => exact settled
  | cons sign signs ih => exact ih

theorem beginsAnew_minus (text : List Char) : BeginsAnew text (many readMinus text).2 := by
  refine relates_many .refl .trans (fun text value rest read => ?_) text
  simp only [readMinus, Option.map_eq_some_iff, Prod.mk.injEq] at read
  obtain ⟨_, sign, -, rfl⟩ := read
  obtain ⟨behind, mark, rfl⟩ := Option.map_eq_some_iff.mp sign
  exact ((BeginsAnew.skipSpace text).trans (beginsAnew_symbol .minus mark)).trans
    (.skipSpace behind)

/-- As many signs are read as before, as none of them can come behind the text. -/
theorem many_readMinus_extended (follows : Follows more least) (within : Within bound least text) :
    many readMinus (text ++ more) = extended more (many readMinus text) := by
  refine many_extended (Within bound least) ?_ ?_ ?_ within
  · intro text value rest read
    simp only [readMinus, Option.map_eq_some_iff, Prod.mk.injEq] at read
    obtain ⟨_, sign, -, rfl⟩ := read
    exact length_lt_of_readSpaced sign (by decide)
  · exact fun _ _ _ within read => within.leaves (balanced_minus _ _ _ read)
  · intro text within
    exact map_symbol_extended (follows.readSpaced_extended within.deep rfl rfl) ()

/-- The induction goes from the tightest level to the loosest, where each but that of the signs is a
chain of operands of the next one. -/
theorem Continues.level (continues : Continues nested other more least bound) {level : Nat}
    (tightest : level ≤ 7) (within : Within (bound + 1) least text) :
    Agrees more (Settled text) (Completes text) (readLevel nested level text)
      (readLevel other level (text ++ more)) := by
  induction tightest using Nat.decreasingInduction generalizing text with
  | of_succ level below ih =>
      by_cases sign : level = 5
      · subst sign
        have union := ih (within.leaves (leaves_many balanced_minus text))
        change Agrees _ _ _ (readNegation nested text) (readNegation other (text ++ more))
        rw [readNegation, readNegation, many_readMinus_extended continues.follows within]
        have anew := beginsAnew_minus text
        simp only [extended]
        generalize (many readMinus text).2 = rest at union anew ⊢
        change Agrees _ _ _ (readUnion nested rest) (readUnion other (rest ++ more)) at union
        generalize readUnion nested rest = first at union ⊢
        generalize readUnion other (rest ++ more) = second at union ⊢
        cases union with
        | fails => exact .fails
        | same value rest final =>
            exact .same _ rest fun ended => ((final ended).mono anew).negate_all _
        | changed changes => exact .changed ((changes.mono anew).negate_all _)
      · obtain ⟨operator, rfl⟩ := exists_operator below sign
        rw [readLevel_operator, readLevel_operator]
        exact chain_agrees (isToken_operator operator) continues.follows
          (balanced_level continues.balanced below) (fun _ => ih) within
  | self => exact continues.term within

/-- What is read with enough depth for the text is read with any greater depth. The induction is on
the depth, and each bracket takes one off. -/
theorem Follows.nested_agrees (follows : Follows more least) {depth deeper : Nat}
    (below : depth ≤ deeper) (within : Within depth least text) :
    Agrees more (Settled text) (Completes text) (readNested depth text)
      (readNested deeper (text ++ more)) := by
  induction depth generalizing deeper text with
  | zero => exact absurd within.shorter (Nat.not_lt_zero _)
  | succ depth ih =>
      obtain ⟨deeper, rfl⟩ : ∃ before, deeper = before + 1 := ⟨deeper - 1, by omega⟩
      have continues : Continues (readNested depth) (readNested deeper) more least depth := by
        refine ⟨follows, balanced_nested depth, fun text inside => ?_⟩
        refine (ih (Nat.le_of_succ_le_succ below) ⟨inside.shorter, ?_⟩).eq_of_rest ?_
        · have deep := inside.deep
          omega
        · intro value rest read
          refine (inside.leaves (balanced_nested depth _ _ _ read)).ne_nil ?_
          have nonneg := follows.nonneg
          omega
      exact continues.level (Nat.zero_le 7) within

theorem nested_agrees {depth deeper : Nat} (below : depth ≤ deeper) (within : Within depth 0 text) :
    Agrees [')'] (Settled text) (Completes text) (readNested depth text)
      (readNested deeper (closed text)) :=
  Follows.parenthesis.nested_agrees below within

/-- Inside of brackets an expression is read in the same way whatever comes behind them, with any
bound on the depth that is not below the length of the text. -/
theorem nested_extended {depth deeper : Nat} (below : depth ≤ deeper) (within : Within depth 1 text)
    (more : List Char) :
    readNested deeper (text ++ more) = (readNested depth text).map (extended more) := by
  refine (Follows.anything.nested_agrees below within).eq_of_rest fun value rest read => ?_
  exact (within.leaves (balanced_nested depth _ _ _ read)).ne_nil (by decide)

end Completion

end XPath

end XmlRecords
