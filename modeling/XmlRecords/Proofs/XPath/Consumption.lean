import XmlRecords.Proofs.XPath.Completion

/-! # What readers of the grammar consume

Whatever a reader of the grammar takes off a text is not empty, and what it leaves is an end of the
text. That holds whatever reads the expressions nested in the text, as long as it leaves an end of
what it reads, for every level down to what has no operators: there a number, a quote, a name, a
bracket, a point or a slash comes first.
-/

namespace XmlRecords

variable {α : Type}

namespace XPath

section Ends

/-- The text ends with the rest, and has more in front of it. -/
structure IsProperEnd (rest text : List Char) : Prop where
  suffix : rest <:+ text
  shorter : rest.length < text.length

namespace IsProperEnd

variable {text middle rest : List Char}

/-- Behind a first part that was taken, more may be taken or nothing. -/
theorem trans_suffix (first : IsProperEnd middle text) (suffix : rest <:+ middle) :
    IsProperEnd rest text :=
  ⟨suffix.trans first.suffix, Nat.lt_of_le_of_lt suffix.length_le first.shorter⟩

/-- Before a last part that was taken, more may have been taken or nothing. -/
theorem of_suffix (suffix : middle <:+ text) (last : IsProperEnd rest middle) :
    IsProperEnd rest text :=
  ⟨last.suffix.trans suffix, Nat.lt_of_lt_of_le last.shorter suffix.length_le⟩

/-- What holds for a text if it holds for the proper ends of the text holds for every text. -/
theorem induction {motive : List Char → Prop}
    (step : ∀ text, (∀ rest, IsProperEnd rest text → motive rest) → motive text)
    (text : List Char) : motive text :=
  (measure List.length).wf.induction text fun text before =>
    step text fun rest inside => before rest inside.shorter

end IsProperEnd

/-- Whenever the reader succeeds it takes a character at least, and it leaves an end of the text. -/
def Consumes (read : Reader α) : Prop :=
  ∀ text value rest, read text = some (value, rest) → IsProperEnd rest text

variable {text rest : List Char}

/-- A symbol that is not empty takes something. -/
theorem isProperEnd_symbol {symbol : String} (read : readSymbol symbol text = some rest)
    (written : 0 < symbol.toList.length) : IsProperEnd rest text :=
  ⟨after?_eq_some_iff.mp read ▸ List.suffix_append _ rest, length_lt_of_readSymbol read written⟩

theorem skipSpace_suffix (text : List Char) : skipSpace text <:+ text :=
  List.dropWhile_suffix isSpace

/-- White space around a symbol may be missing, the symbol may not. -/
theorem isProperEnd_spaced {symbol : String} (read : readSpaced symbol text = some rest)
    (written : 0 < symbol.toList.length) : IsProperEnd rest text := by
  obtain ⟨behind, symbolRead, rfl⟩ := Option.map_eq_some_iff.mp read
  exact ((isProperEnd_symbol symbolRead written).trans_suffix (skipSpace_suffix behind)).of_suffix
    (skipSpace_suffix text)

end Ends

section Words

/-- A name has its first character at least. -/
theorem consumes_name : Consumes readName := by
  intro text name rest read
  refine ⟨(balanced_name _ _ _ read).suffix, ?_⟩
  cases text with
  | nil => cases read
  | cons char text =>
      rw [readName] at read
      split at read
      · rename_i start
        obtain rfl : ((char :: text).span isNameChar).2 = rest :=
          congrArg Prod.snd (Option.some.inj read)
        rw [List.span_eq_takeWhile_dropWhile,
          List.dropWhile_cons_of_pos (isNameChar_of_isNameStart start)]
        exact Nat.lt_succ_of_le (List.dropWhile_suffix isNameChar).length_le
      · cases read

theorem consumes_localName : Consumes readLocalName := by
  intro text name rest read
  unfold readLocalName at read
  split at read
  · cases read
  · rename_i first middle named
    have before := consumes_name _ _ _ named
    split at read
    · cases read
      exact before
    · rename_i localRead
      cases read
      exact before.trans_suffix (balanced_localPart _ _ _ localRead).suffix

theorem consumes_fullName : Consumes readFullName := by
  intro text name rest read
  unfold readFullName at read
  split at read
  · cases read
  · rename_i first middle named
    have before := consumes_name _ _ _ named
    split at read
    · cases read
      exact before
    · rename_i localRead
      cases read
      exact before.trans_suffix (balanced_localPart _ _ _ localRead).suffix

/-- Without digits there is no number. -/
theorem consumes_number : Consumes readNumber := by
  intro text value rest read
  refine ⟨(balanced_number _ _ _ read).suffix, ?_⟩
  have onward : ∀ behind : List Char, (behind.span Char.isDigit).2.length ≤ behind.length :=
    fun behind => (leaves_span Char.isDigit (forall_mem_of_all (by decide)) behind).length_le
  have whole := congrArg List.length (append_span Char.isDigit text)
  rw [List.length_append] at whole
  unfold readNumber at read
  split at read
  · rename_i behind parts
    have fraction := onward behind
    have less : behind.length < text.length := by
      rw [parts, List.length_cons] at whole
      omega
    split at read
    · cases read
    · rename_i row
      cases read
      rw [row] at fraction
      exact Nat.lt_of_le_of_lt fraction less
  · cases read
  · rename_i behind _ parts
    have fraction := onward behind
    have less : behind.length < text.length := by
      rw [parts, List.length_cons] at whole
      omega
    split at read
    all_goals
      rename_i row
      cases read
      rw [row] at fraction
      exact Nat.lt_of_le_of_lt fraction less
  · rename_i digits behind _ noDigits _ parts
    have present : 0 < digits.length := List.length_pos_of_ne_nil noDigits
    cases read
    rw [parts] at whole
    dsimp only at whole
    omega

/-- A string literal takes both of its quotes. -/
theorem isProperEnd_quoted {quote : Char} {text rest : List Char} {content : String}
    (mark : quote ∈ ['\'', '"']) (read : readQuoted quote text = some (content, rest)) :
    IsProperEnd rest (quote :: text) := by
  refine ⟨(balanced_quoted mark read).suffix, ?_⟩
  have whole := congrArg List.length (append_span (· != quote) text)
  rw [List.length_append] at whole
  unfold readQuoted at read
  split at read
  · cases read
  · rename_i parts
    cases read
    rw [parts, List.length_cons] at whole
    exact Nat.lt_succ_of_le (by omega)

theorem consumes_literal : Consumes readLiteral := by
  intro text content rest read
  unfold readLiteral at read
  split at read
  · exact isProperEnd_quoted (by decide) read
  · exact isProperEnd_quoted (by decide) read
  · cases read

theorem isProperEnd_nodeType {type : String} {text rest : List Char}
    (read : readNodeType type text = some rest) : IsProperEnd rest text := by
  obtain ⟨middle, word, parentheses⟩ := Option.bind_eq_some_iff.mp read
  exact (isProperEnd_spaced parentheses (by decide)).of_suffix
    (after?_eq_some_iff.mp word ▸ List.suffix_append _ middle)

/-- A node test is a star, a node type or a name, none of them empty. -/
theorem consumes_nodeTest : Consumes readNodeTest := by
  intro text test rest read
  simp only [readNodeTest, Option.orElse_eq_orElse, Option.orElse_eq_or, Option.or_eq_some_iff,
    Option.map_eq_some_iff, Prod.mk.injEq] at read
  rcases read with ⟨_, star, -, rfl⟩ | ⟨-, ⟨_, type, -, rfl⟩ | ⟨-, ⟨_, type, -, rfl⟩ |
    ⟨-, ⟨_, type, -, rfl⟩ | ⟨-, _, named, -, rfl⟩⟩⟩⟩
  · exact isProperEnd_symbol star (by decide)
  · exact isProperEnd_nodeType type
  · exact isProperEnd_nodeType type
  · exact isProperEnd_nodeType type
  · exact consumes_localName _ _ _ named

/-- The name of an axis has two colons behind it. -/
theorem consumes_axis : Consumes readAxis := by
  intro text axis rest read
  simp only [readAxis, Option.bind_eq_bind, Option.bind_eq_some_iff, Option.pure_def,
    Option.some.injEq, Prod.mk.injEq] at read
  obtain ⟨⟨axis, middle⟩, named, behind, colons, rfl, rfl⟩ := read
  exact (isProperEnd_symbol colons (by decide)).of_suffix
    (balanced_oneOf isPlain_axis _ _ _ named).suffix

/-- No operator is written as nothing. -/
theorem consumes_operator (operator : Operator) : Consumes (readOperator operator.level) :=
  fun _ _ _ read => ⟨((isToken_operator operator).balanced _ _ _ read).suffix,
    (isToken_operator operator).shorter _ _ _ read⟩

end Words

section Expressions

variable {nested : Reader Expression}

theorem consumes_minus : Consumes readMinus := by
  intro text value rest read
  simp only [readMinus, Option.map_eq_some_iff, Prod.mk.injEq] at read
  obtain ⟨_, sign, -, rfl⟩ := read
  exact isProperEnd_spaced sign (by decide)

/-- An argument behind another one takes the comma. -/
theorem consumes_nextArgument (balanced : TakesBalanced nested) :
    Consumes (readNextArgument nested) := fun _ _ _ read =>
  ⟨(balanced_nextArgument balanced _ _ _ read).suffix, length_lt_of_readNextArgument balanced read⟩

theorem consumes_predicate (balanced : TakesBalanced nested) : Consumes (readPredicate nested) :=
  fun _ _ _ read =>
    ⟨(balanced_predicate balanced _ _ _ read).suffix, length_lt_of_readPredicate balanced read⟩

/-- A step behind another one takes a slash. -/
theorem consumes_nextStep (balanced : TakesBalanced nested) : Consumes (readNextStep nested) :=
  fun _ _ _ read =>
    ⟨(balanced_nextStep balanced _ _ _ read).suffix, length_lt_of_readNextStep balanced read⟩

/-- Parentheses are taken with what they enclose. -/
theorem consumes_group (balanced : TakesBalanced nested) : Consumes (readGroup nested) := by
  intro text value rest read
  simp only [readGroup, Option.bind_eq_bind, Option.bind_eq_some_iff, Option.pure_def,
    Option.some.injEq, Prod.mk.injEq] at read
  obtain ⟨_, opened, _, content, _, closed, -, rfl⟩ := read
  have inside := (balanced _ _ _ content).suffix
  exact (isProperEnd_spaced opened (by decide)).trans_suffix
    ((isProperEnd_spaced closed (by decide)).suffix.trans inside)

/-- A call takes the name of the function. -/
theorem consumes_call (balanced : TakesBalanced nested) : Consumes (readCall nested) := by
  intro text value rest read
  simp only [readCall, Option.bind_eq_bind, Option.bind_eq_some_iff, Option.pure_def,
    Option.some.injEq, Prod.mk.injEq] at read
  obtain ⟨_, named, _, opened, -, -, _, closed, -, rfl⟩ := read
  have inside := (leaves_arguments balanced _).suffix.trans
    (isProperEnd_spaced opened (by decide)).suffix
  exact (consumes_fullName _ _ _ named).trans_suffix
    ((isProperEnd_spaced closed (by decide)).suffix.trans inside)

theorem consumes_axisTest : Consumes readAxisTest := by
  intro text value rest read
  simp only [readAxisTest, Option.orElse_eq_orElse, Option.orElse_eq_or, Option.or_eq_some_iff,
    Option.bind_eq_bind, Option.bind_eq_some_iff, Option.pure_def, Option.some.injEq,
    Prod.mk.injEq] at read
  rcases read with ⟨_, mark, _, test, -, rfl⟩ | ⟨-, ⟨_, axis, _, test, -, rfl⟩ |
    ⟨-, _, test, -, rfl⟩⟩
  · exact (consumes_nodeTest _ _ _ test).of_suffix (isProperEnd_symbol mark (by decide)).suffix
  · exact (consumes_nodeTest _ _ _ test).of_suffix (consumes_axis _ _ _ axis).suffix
  · exact consumes_nodeTest _ _ _ test

/-- A step is a point, two points or a node test. -/
theorem consumes_step (balanced : TakesBalanced nested) : Consumes (readStep nested) := by
  intro text value rest read
  simp only [readStep, Option.orElse_eq_orElse, Option.orElse_eq_or, Option.or_eq_some_iff,
    Option.map_eq_some_iff, Prod.mk.injEq] at read
  rcases read with ⟨_, up, -, rfl⟩ | ⟨-, ⟨_, here, -, rfl⟩ | ⟨-, _, test, -, rfl⟩⟩
  · exact isProperEnd_symbol up (by decide)
  · exact isProperEnd_symbol here (by decide)
  · exact (consumes_axisTest _ _ _ test).trans_suffix
      (leaves_many (balanced_predicate balanced) _).suffix

/-- A path takes its first step, or the slash that stands for the root. -/
theorem consumes_firstStep (balanced : TakesBalanced nested) :
    Consumes (readFirstStep nested) := by
  have steps := consumes_step balanced
  intro text value rest read
  unfold readFirstStep at read
  split at read
  · rename_i slashes
    simp only [Option.map_eq_some_iff, Prod.mk.injEq] at read
    obtain ⟨_, step, -, rfl⟩ := read
    exact (steps _ _ _ step).of_suffix (isProperEnd_symbol slashes (by decide)).suffix
  · split at read
    · rename_i slash
      have root := isProperEnd_symbol slash (by decide)
      split at read
      · rename_i step
        cases read
        exact root.trans_suffix (steps _ _ _ step).suffix
      · cases read
        exact root
    · simp only [Option.map_eq_some_iff, Prod.mk.injEq] at read
      obtain ⟨_, step, -, rfl⟩ := read
      exact steps _ _ _ step

theorem consumes_path (balanced : TakesBalanced nested) : Consumes (readPath nested) := by
  intro text value rest read
  simp only [readPath, Option.bind_eq_bind, Option.bind_eq_some_iff, Option.pure_def,
    Option.some.injEq, Prod.mk.injEq] at read
  obtain ⟨_, first, -, rfl⟩ := read
  exact (consumes_firstStep balanced _ _ _ first).trans_suffix
    (leaves_many (balanced_nextStep balanced) _).suffix

/-- Whatever stands for itself is not empty. -/
theorem consumes_primary (balanced : TakesBalanced nested) : Consumes (readPrimary nested) := by
  intro text value rest read
  simp only [readPrimary, Option.orElse_eq_orElse, Option.orElse_eq_or, Option.or_eq_some_iff,
    Option.map_eq_some_iff, Prod.mk.injEq] at read
  rcases read with ⟨_, number, -, rfl⟩ | ⟨-, ⟨_, literal, -, rfl⟩ | ⟨-, call | ⟨-, group |
    ⟨-, path⟩⟩⟩⟩
  · exact consumes_number _ _ _ number
  · exact consumes_literal _ _ _ literal
  · exact consumes_call balanced _ _ _ call
  · exact consumes_group balanced _ _ _ group
  · exact consumes_path balanced _ _ _ path

theorem consumes_operand (operator : Operator) {operand : Reader Expression}
    (balanced : TakesBalanced operand) :
    Consumes (readOperand (readOperator operator.level) operand) := fun _ _ _ read =>
  ⟨(balanced_operand (balanced_operator operator) balanced _ _ _ read).suffix,
    length_lt_of_readOperand (isToken_operator operator) balanced read⟩

/-- A chain takes its first operand, and may end there. -/
theorem consumes_chain {operator : Reader Operator} {operand : Reader Expression}
    (operators : TakesBalanced operator) (operands : TakesBalanced operand)
    (consumes : Consumes operand) : Consumes (readChain operator operand) := by
  intro text value rest read
  simp only [readChain, Option.bind_eq_bind, Option.bind_eq_some_iff, Option.pure_def,
    Option.some.injEq, Prod.mk.injEq] at read
  obtain ⟨_, first, -, rfl⟩ := read
  exact (consumes _ _ _ first).trans_suffix
    (leaves_many (balanced_operand operators operands) _).suffix

/-- What is read at a level takes a character at least, because what has no operators does. -/
theorem consumes_level (balanced : TakesBalanced nested) {level : Nat} (bound : level ≤ 7) :
    Consumes (readLevel nested level) := by
  induction bound using Nat.decreasingInduction with
  | of_succ level below ih =>
      by_cases sign : level = 5
      · subst sign
        intro text value rest read
        change readNegation nested text = _ at read
        simp only [readNegation, Option.bind_eq_bind, Option.bind_eq_some_iff, Option.pure_def,
          Option.some.injEq, Prod.mk.injEq] at read
        obtain ⟨_, operand, -, rfl⟩ := read
        exact (ih _ _ _ operand).of_suffix (leaves_many balanced_minus text).suffix
      · obtain ⟨operator, rfl⟩ := exists_operator below sign
        rw [readLevel_operator]
        exact consumes_chain (balanced_operator operator) (balanced_level balanced below) ih
  | self =>
      intro text value rest read
      change readTerm nested text = _ at read
      simp only [readTerm, Option.map_eq_some_iff, Prod.mk.injEq] at read
      obtain ⟨_, term, -, rfl⟩ := read
      exact ((consumes_primary balanced _ _ _ term).of_suffix
        (skipSpace_suffix text)).trans_suffix (skipSpace_suffix _)

end Expressions

end XPath

end XmlRecords
