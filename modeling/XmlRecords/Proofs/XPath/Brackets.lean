import XmlRecords.Proofs.XPath.Precedence

/-! # Brackets in what is read

A text is scanned from left to right, and the brackets outside of string literals are counted.
Whatever a reader of the grammar takes off a text closes as many brackets as it opens. So the number
of brackets that a text closes and does not open is the same before and behind an expression, and
tells how deep the expression is nested.
-/

namespace XmlRecords

namespace XPath

section Scanning

/-- What a character adds to the number of brackets that are closed. -/
def closing : Char → Int
  | '(' => -1
  | '[' => -1
  | ')' => 1
  | ']' => 1
  | _ => 0

/-- How many more brackets a text closes than it opens, where it begins in a string literal with the
given quote or outside of literals. -/
def surplusFrom : Option Char → List Char → Int
  | _, [] => 0
  | some quote, char :: text => surplusFrom (if char = quote then none else some quote) text
  | none, char :: text =>
      if char ∈ ['\'', '"'] then
        surplusFrom (some char) text
      else
        closing char + surplusFrom none text

/-- How many more brackets a text closes than it opens, those in string literals not counted. -/
def surplus (text : List Char) : Int :=
  surplusFrom none text

theorem surplus_cons {char : Char} {text : List Char} (unquoted : char ∉ ['\'', '"']) :
    surplus (char :: text) = closing char + surplus text := by
  rw [surplus, surplusFrom, if_neg unquoted, surplus]

/-- Outside of string literals the brackets of two texts add up. -/
theorem surplus_append {word rest : List Char} (unquoted : ∀ char ∈ word, char ∉ ['\'', '"']) :
    surplus (word ++ rest) = surplus word + surplus rest := by
  induction word with
  | nil => exact (Int.zero_add _).symm
  | cons char word ih =>
      rw [List.forall_mem_cons] at unquoted
      rw [List.cons_append, surplus_cons unquoted.1, surplus_cons unquoted.1, ih unquoted.2,
        Int.add_assoc]

/-- Brackets in a string literal do not count. -/
theorem surplus_quoted {quote : Char} {content rest : List Char} (mark : quote ∈ ['\'', '"'])
    (inside : ∀ char ∈ content, char ≠ quote) :
    surplus (quote :: (content ++ quote :: rest)) = surplus rest := by
  rw [surplus, surplusFrom, if_pos mark]
  induction content with
  | nil => rw [List.nil_append, surplusFrom, if_pos rfl, surplus]
  | cons char content ih =>
      rw [List.forall_mem_cons] at inside
      rw [List.cons_append, surplusFrom, if_neg inside.1, ih inside.2]

/-- The rest is what is left of the text when a part in front has been taken that opens this many
brackets more than it closes. -/
structure Leaves (opened : Int) (text rest : List Char) : Prop where
  suffix : rest <:+ text
  surplus_eq : surplus rest = surplus text + opened

namespace Leaves

variable {text middle behind rest : List Char}

theorem refl (text : List Char) : Leaves 0 text text :=
  ⟨List.suffix_refl text, (Int.add_zero _).symm⟩

/-- What is taken in two parts, one behind the other. -/
theorem trans (first : Leaves 0 text middle) (second : Leaves 0 middle rest) :
    Leaves 0 text rest := by
  refine ⟨second.suffix.trans first.suffix, ?_⟩
  rw [second.surplus_eq, first.surplus_eq, Int.add_zero]

/-- What is taken up to a bracket and behind the bracket that closes it. -/
theorem bracketed (opens : Leaves 1 text middle) (inside : Leaves 0 middle behind)
    (closes : Leaves (-1) behind rest) : Leaves 0 text rest := by
  refine ⟨(closes.suffix.trans inside.suffix).trans opens.suffix, ?_⟩
  rw [closes.surplus_eq, inside.surplus_eq, opens.surplus_eq]
  omega

/-- Nothing is left that was not in the text. -/
theorem length_le {opened : Int} (leaves : Leaves opened text rest) :
    rest.length ≤ text.length :=
  leaves.suffix.length_le

/-- A word without quotes is taken off as a whole, whatever stands behind it. -/
theorem of_word {word : List Char} {opened : Int} (unquoted : ∀ char ∈ word, char ∉ ['\'', '"'])
    (balance : surplus word + opened = 0) (rest : List Char) :
    Leaves opened (word ++ rest) rest := by
  refine ⟨List.suffix_append word rest, ?_⟩
  rw [surplus_append unquoted]
  omega

end Leaves

end Scanning

section Words

/-- What the reader takes off a text closes as many brackets as it opens. -/
def TakesBalanced (read : Reader α) : Prop :=
  ∀ text value rest, read text = some (value, rest) → Leaves 0 text rest

/-- The characters that the scanner looks at. -/
def scanned : List Char :=
  ['\'', '"', '(', ')', '[', ']']

theorem closing_eq_zero {char : Char} (plain : char ∉ scanned) : closing char = 0 := by
  unfold closing
  split
  · exact absurd (by decide) plain
  · exact absurd (by decide) plain
  · exact absurd (by decide) plain
  · exact absurd (by decide) plain
  · rfl

theorem unquoted_of_not_mem_scanned {char : Char} (plain : char ∉ scanned) :
    char ∉ ['\'', '"'] :=
  fun quote => plain (List.mem_append_left ['(', ')', '[', ']'] quote)

/-- None of the characters is a bracket or a quote. -/
def isPlain (word : List Char) : Bool :=
  word.all fun char => decide (char ∉ scanned)

theorem not_mem_scanned_of_isPlain {word : List Char} (plain : isPlain word) :
    ∀ char ∈ word, char ∉ scanned :=
  forall_mem_of_all plain

/-- Characters that are no brackets and no quotes close nothing. -/
theorem surplus_eq_zero {word : List Char} (plain : ∀ char ∈ word, char ∉ scanned) :
    surplus word = 0 := by
  induction word with
  | nil => rfl
  | cons char word ih =>
      rw [List.forall_mem_cons] at plain
      rw [surplus_cons (unquoted_of_not_mem_scanned plain.1), closing_eq_zero plain.1, ih plain.2]
      rfl

/-- A row of characters that the scan takes no notice of. -/
theorem leaves_row {row : List Char} (plain : ∀ char ∈ row, char ∉ scanned) (rest : List Char) :
    Leaves 0 (row ++ rest) rest := by
  refine .of_word (fun char member => unquoted_of_not_mem_scanned (plain char member)) ?_ rest
  rw [surplus_eq_zero plain, Int.add_zero]

/-- A row of characters of one kind has no brackets if none is of this kind. -/
theorem leaves_span (kind : Char → Bool) (plain : ∀ char ∈ scanned, kind char = false)
    (text : List Char) : Leaves 0 text (text.span kind).2 := by
  have row : ∀ char ∈ (text.span kind).1, char ∉ scanned := by
    intro char member mark
    exact Bool.false_ne_true ((plain char mark).symm.trans (of_mem_span kind text char member))
  have leaves := leaves_row row (text.span kind).2
  rwa [append_span] at leaves

/-- White space does not count. -/
theorem leaves_skipSpace (text : List Char) : Leaves 0 text (skipSpace text) := by
  have leaves := leaves_span isSpace (forall_mem_of_all (by decide)) text
  rwa [List.span_eq_takeWhile_dropWhile] at leaves

/-- A symbol is taken off as a whole, with the brackets that it opens or closes. -/
theorem leaves_symbol {symbol : String} {text rest : List Char} {opened : Int}
    (read : readSymbol symbol text = some rest)
    (unquoted : symbol.toList.all fun char => decide (char ∉ ['\'', '"']))
    (balance : surplus symbol.toList + opened = 0) : Leaves opened text rest := by
  rw [after?_eq_some_iff.mp read]
  exact .of_word (forall_mem_of_all unquoted) balance rest

/-- A symbol without brackets and quotes. -/
theorem leaves_plain {symbol : String} {text rest : List Char}
    (read : readSymbol symbol text = some rest) (plain : isPlain symbol.toList) :
    Leaves 0 text rest := by
  rw [after?_eq_some_iff.mp read]
  exact leaves_row (not_mem_scanned_of_isPlain plain) rest

/-- White space around a symbol changes nothing. -/
theorem leaves_spaced {symbol : String} {text rest : List Char} {opened : Int}
    (read : readSpaced symbol text = some rest)
    (unquoted : symbol.toList.all fun char => decide (char ∉ ['\'', '"']))
    (balance : surplus symbol.toList + opened = 0) : Leaves opened text rest := by
  obtain ⟨behind, symbolRead, rfl⟩ := Option.map_eq_some_iff.mp read
  have symbolLeaves := leaves_symbol symbolRead unquoted balance
  have before := leaves_skipSpace text
  have after := leaves_skipSpace behind
  refine ⟨(after.suffix.trans symbolLeaves.suffix).trans before.suffix, ?_⟩
  rw [after.surplus_eq, symbolLeaves.surplus_eq, before.surplus_eq]
  omega

theorem balanced_oneOf {symbol : α → String} {values : List α}
    (plain : ∀ value ∈ values, isPlain (symbol value).toList) :
    TakesBalanced (readOneOf symbol values) := by
  intro text value rest read
  obtain ⟨member, symbolRead⟩ := readSymbol_of_readOneOf read
  exact leaves_plain symbolRead (plain value member)

/-- No name holds a bracket or a quote. -/
theorem isNameChar_of_mem_scanned : ∀ char ∈ scanned, isNameChar char = false := by
  have among : ∀ char ∈ scanned, char ∈ punctuation := forall_mem_of_all (by decide)
  exact fun char mark => isNameChar_of_mem_punctuation (among char mark)

/-- A name is a row of characters of names. -/
theorem balanced_name : TakesBalanced readName := by
  intro text name rest read
  cases text with
  | nil => cases read
  | cons char text =>
      rw [readName] at read
      split at read
      · obtain rfl : ((char :: text).span isNameChar).2 = rest :=
          congrArg Prod.snd (Option.some.inj read)
        exact leaves_span isNameChar isNameChar_of_mem_scanned _
      · cases read

theorem leaves_char {char : Char} (plain : char ∉ scanned) (text : List Char) :
    Leaves 0 (char :: text) text :=
  leaves_row (List.forall_mem_singleton.mpr plain) text

/-- The colon before a local part counts as little as the part itself. -/
theorem balanced_localPart : TakesBalanced readLocalPart := by
  intro text name rest read
  unfold readLocalPart at read
  split at read
  · exact (leaves_char (by decide) _).trans (balanced_name _ _ _ read)
  · cases read

theorem balanced_localName : TakesBalanced readLocalName := by
  intro text name rest read
  unfold readLocalName at read
  split at read
  · cases read
  · rename_i first middle named
    have before := balanced_name _ _ _ named
    split at read
    · cases read
      exact before
    · rename_i localRead
      cases read
      exact before.trans (balanced_localPart _ _ _ localRead)

theorem balanced_fullName : TakesBalanced readFullName := by
  intro text name rest read
  unfold readFullName at read
  split at read
  · cases read
  · rename_i first middle named
    have before := balanced_name _ _ _ named
    split at read
    · cases read
      exact before
    · rename_i localRead
      cases read
      exact before.trans (balanced_localPart _ _ _ localRead)

/-- Digits and points are plain, in every form of a number. -/
theorem balanced_number : TakesBalanced readNumber := by
  have digits := leaves_span Char.isDigit (forall_mem_of_all (by decide))
  have point := fun text => leaves_char (by decide : '.' ∉ scanned) text
  intro text value rest read
  have whole := digits text
  unfold readNumber at read
  split at read
  · rename_i behind parts
    rw [parts] at whole
    have fraction := (whole.trans (point behind)).trans (digits behind)
    split at read
    · cases read
    · rename_i row
      cases read
      rwa [row] at fraction
  · cases read
  · rename_i behind _ parts
    rw [parts] at whole
    have fraction := (whole.trans (point behind)).trans (digits behind)
    split at read
    all_goals
      rename_i row
      cases read
      rwa [row] at fraction
  · rename_i parts
    cases read
    rwa [parts] at whole

/-- Both quotes are taken off with what stands between them, where no bracket counts. -/
theorem balanced_quoted {quote : Char} {text rest : List Char} {content : String}
    (mark : quote ∈ ['\'', '"']) (read : readQuoted quote text = some (content, rest)) :
    Leaves 0 (quote :: text) rest := by
  unfold readQuoted at read
  split at read
  · cases read
  · rename_i row last behind parts
    cases read
    have whole := append_span (· != quote) text
    have inside : ∀ char ∈ row, char ≠ quote := by
      intro char member
      have other := of_mem_span (· != quote) text
      rw [parts] at other
      exact bne_iff_ne.mp (other char member)
    have stop := of_mem_head?_span (· != quote) text
    rw [parts] at whole stop
    obtain rfl : last = quote := bne_eq_false_iff_eq.mp (stop last rfl)
    rw [← whole]
    refine ⟨(List.suffix_cons last rest).trans ?_, ?_⟩
    · exact (List.suffix_append row _).trans (List.suffix_cons last _)
    rw [surplus_quoted mark inside, Int.add_zero]

theorem balanced_literal : TakesBalanced readLiteral := by
  intro text content rest read
  unfold readLiteral at read
  split at read
  · exact balanced_quoted (by decide) read
  · exact balanced_quoted (by decide) read
  · cases read

/-- The parentheses of a node type are an opening and a closing one. -/
theorem leaves_nodeType {type : String} {text rest : List Char}
    (plain : isPlain type.toList) (read : readNodeType type text = some rest) :
    Leaves 0 text rest := by
  obtain ⟨middle, word, parentheses⟩ := Option.bind_eq_some_iff.mp read
  exact (leaves_plain word plain).trans
    (leaves_spaced parentheses rfl rfl)

theorem balanced_nodeTest : TakesBalanced readNodeTest := by
  intro text test rest read
  simp only [readNodeTest, Option.orElse_eq_orElse, Option.orElse_eq_or, Option.or_eq_some_iff,
    Option.map_eq_some_iff, Prod.mk.injEq] at read
  rcases read with ⟨_, star, -, rfl⟩ | ⟨-, ⟨_, type, -, rfl⟩ | ⟨-, ⟨_, type, -, rfl⟩ |
    ⟨-, ⟨_, type, -, rfl⟩ | ⟨-, _, named, -, rfl⟩⟩⟩⟩
  · exact leaves_plain star rfl
  · exact leaves_nodeType rfl type
  · exact leaves_nodeType rfl type
  · exact leaves_nodeType rfl type
  · exact balanced_localName _ _ _ named

/-- The names of axes are plain. -/
theorem isPlain_axis : ∀ axis ∈ Axis.all, isPlain axis.name.toList := by
  intro axis _
  cases axis <;> rfl

/-- The name of an axis is taken off with its two colons. -/
theorem balanced_axis : TakesBalanced readAxis := by
  intro text axis rest read
  simp only [readAxis, Option.bind_eq_bind, Option.bind_eq_some_iff, Option.pure_def,
    Option.some.injEq, Prod.mk.injEq] at read
  obtain ⟨⟨axis, middle⟩, named, behind, colons, rfl, rfl⟩ := read
  exact (balanced_oneOf isPlain_axis _ _ _ named).trans (leaves_plain colons rfl)

theorem balanced_keyword {operator : Operator}
    (plain : isPlain operator.symbol.toList) :
    TakesBalanced (readWordOperator operator) := by
  intro text value rest read
  simp only [readWordOperator, Option.map_eq_some_iff, Prod.mk.injEq] at read
  obtain ⟨_, read, -, rfl⟩ := read
  unfold readKeyword at read
  split at read
  · cases read
  · rename_i word
    cases read
    exact leaves_plain word plain
  · rename_i word
    split at read
    · cases read
    · cases read
      exact leaves_plain word plain

/-- No operator is written with brackets or quotes. -/
theorem isPlain_symbol (operator : Operator) : isPlain operator.symbol.toList := by
  cases operator with
  | compare comparison => cases comparison <;> rfl
  | _ => rfl

theorem balanced_operator (operator : Operator) : TakesBalanced (readOperator operator.level) := by
  cases operator with
  | or => exact balanced_keyword (isPlain_symbol .or)
  | and => exact balanced_keyword (isPlain_symbol .and)
  | compare comparison =>
      cases comparison <;> exact balanced_oneOf fun other _ => isPlain_symbol other
  | _ => exact balanced_oneOf fun other _ => isPlain_symbol other

end Words

section Expressions

/-- What one reading keeps in balance, any number of them does. -/
theorem leaves_many {read : Reader α} (balanced : TakesBalanced read) (text : List Char) :
    Leaves 0 text (many read text).2 :=
  relates_many .refl .trans balanced text

/-- White space, an operator, white space and an operand, each of them balanced. -/
theorem balanced_operand {operator : Reader Operator} {operand : Reader Expression}
    (operators : TakesBalanced operator) (operands : TakesBalanced operand) :
    TakesBalanced (readOperand operator operand) := by
  intro text value rest read
  simp only [readOperand, Option.bind_eq_bind, Option.bind_eq_some_iff, Option.pure_def,
    Option.some.injEq, Prod.mk.injEq] at read
  obtain ⟨_, symbol, _, right, -, rfl⟩ := read
  have before := (leaves_skipSpace text).trans (operators _ _ _ symbol)
  exact (before.trans (leaves_skipSpace _)).trans (operands _ _ _ right)

/-- Operands with operators between them are balanced if these are. -/
theorem balanced_chain {operator : Reader Operator} {operand : Reader Expression}
    (operators : TakesBalanced operator) (operands : TakesBalanced operand) :
    TakesBalanced (readChain operator operand) := by
  intro text value rest read
  simp only [readChain, Option.bind_eq_bind, Option.bind_eq_some_iff, Option.pure_def,
    Option.some.injEq, Prod.mk.injEq] at read
  obtain ⟨_, first, -, rfl⟩ := read
  exact (operands _ _ _ first).trans (leaves_many (balanced_operand operators operands) _)

variable {nested : Reader Expression}

/-- Behind an opening bracket one more bracket is open. -/
theorem leaves_opening {symbol : String} {text rest : List Char}
    (read : readSpaced symbol text = some rest) (opening : symbol ∈ ["(", "["]) :
    Leaves 1 text rest := by
  simp only [List.mem_cons, List.not_mem_nil, or_false] at opening
  rcases opening with rfl | rfl
  · exact leaves_spaced read rfl rfl
  · exact leaves_spaced read rfl rfl

/-- Behind a closing bracket one bracket less is open. -/
theorem leaves_closing {symbol : String} {text rest : List Char}
    (read : readSpaced symbol text = some rest) (closing : symbol ∈ [")", "]"]) :
    Leaves (-1) text rest := by
  simp only [List.mem_cons, List.not_mem_nil, or_false] at closing
  rcases closing with rfl | rfl
  · exact leaves_spaced read rfl rfl
  · exact leaves_spaced read rfl rfl

theorem balanced_nextArgument (balanced : TakesBalanced nested) :
    TakesBalanced (readNextArgument nested) := by
  intro text value rest read
  simp only [readNextArgument, Option.bind_eq_bind, Option.bind_eq_some_iff] at read
  obtain ⟨_, comma, argument⟩ := read
  exact (leaves_spaced comma rfl rfl).trans (balanced _ _ _ argument)

/-- Arguments may be missing, and then nothing is taken off. -/
theorem leaves_arguments (balanced : TakesBalanced nested) (text : List Char) :
    Leaves 0 text (readArguments nested text).2 := by
  unfold readArguments
  split
  · exact .refl text
  · rename_i first
    exact (balanced _ _ _ first).trans (leaves_many (balanced_nextArgument balanced) _)

/-- The parentheses of a call close each other around its arguments. -/
theorem balanced_call (balanced : TakesBalanced nested) : TakesBalanced (readCall nested) := by
  intro text value rest read
  simp only [readCall, Option.bind_eq_bind, Option.bind_eq_some_iff, Option.pure_def,
    Option.some.injEq, Prod.mk.injEq] at read
  obtain ⟨_, named, _, opened, -, -, _, closed, -, rfl⟩ := read
  have inside := (leaves_opening opened (by decide)).bracketed (leaves_arguments balanced _)
    (leaves_closing closed (by decide))
  exact (balanced_fullName _ _ _ named).trans inside

/-- What stands between brackets is balanced with them. -/
theorem balanced_between (balanced : TakesBalanced nested) {opening closing : String}
    (opens : opening ∈ ["(", "["]) (closes : closing ∈ [")", "]"]) :
    TakesBalanced fun text => do
      let (content, rest) ← nested (← readSpaced opening text)
      let rest ← readSpaced closing rest
      return (content, rest) := by
  intro text value rest read
  simp only [Option.bind_eq_bind, Option.bind_eq_some_iff, Option.pure_def, Option.some.injEq,
    Prod.mk.injEq] at read
  obtain ⟨_, opened, _, content, _, closed, -, rfl⟩ := read
  exact (leaves_opening opened opens).bracketed (balanced _ _ _ content)
    (leaves_closing closed closes)

theorem balanced_group (balanced : TakesBalanced nested) : TakesBalanced (readGroup nested) :=
  balanced_between balanced (by decide) (by decide)

theorem balanced_predicate (balanced : TakesBalanced nested) :
    TakesBalanced (readPredicate nested) :=
  balanced_between balanced (by decide) (by decide)

theorem balanced_axisTest : TakesBalanced readAxisTest := by
  intro text value rest read
  simp only [readAxisTest, Option.orElse_eq_orElse, Option.orElse_eq_or, Option.or_eq_some_iff,
    Option.bind_eq_bind, Option.bind_eq_some_iff, Option.pure_def, Option.some.injEq,
    Prod.mk.injEq] at read
  rcases read with ⟨_, mark, _, test, -, rfl⟩ | ⟨-, ⟨_, axis, _, test, -, rfl⟩ |
    ⟨-, _, test, -, rfl⟩⟩
  · exact (leaves_plain mark rfl).trans (balanced_nodeTest _ _ _ test)
  · exact (balanced_axis _ _ _ axis).trans (balanced_nodeTest _ _ _ test)
  · exact balanced_nodeTest _ _ _ test

/-- A step is balanced with its predicates, as many as there are. -/
theorem balanced_step (balanced : TakesBalanced nested) : TakesBalanced (readStep nested) := by
  intro text value rest read
  simp only [readStep, Option.orElse_eq_orElse, Option.orElse_eq_or, Option.or_eq_some_iff,
    Option.map_eq_some_iff, Prod.mk.injEq] at read
  rcases read with ⟨_, up, -, rfl⟩ | ⟨-, ⟨_, here, -, rfl⟩ | ⟨-, _, test, -, rfl⟩⟩
  · exact leaves_plain up rfl
  · exact leaves_plain here rfl
  · exact (balanced_axisTest _ _ _ test).trans (leaves_many (balanced_predicate balanced) _)

/-- One slash or two before a step do not count. -/
theorem balanced_nextStep (balanced : TakesBalanced nested) :
    TakesBalanced (readNextStep nested) := by
  have steps := balanced_step balanced
  intro text value rest read
  unfold readNextStep at read
  split at read
  · rename_i slashes
    simp only [Option.map_eq_some_iff, Prod.mk.injEq] at read
    obtain ⟨_, step, -, rfl⟩ := read
    exact (leaves_plain slashes rfl).trans (steps _ _ _ step)
  · simp only [Option.bind_eq_bind, Option.bind_eq_some_iff, Option.pure_def, Option.some.injEq,
      Prod.mk.injEq] at read
    obtain ⟨_, slash, _, step, -, rfl⟩ := read
    exact (leaves_plain slash rfl).trans (steps _ _ _ step)

/-- A path may begin with slashes, and a single slash is a path. -/
theorem balanced_firstStep (balanced : TakesBalanced nested) :
    TakesBalanced (readFirstStep nested) := by
  have steps := balanced_step balanced
  intro text value rest read
  unfold readFirstStep at read
  split at read
  · rename_i slashes
    simp only [Option.map_eq_some_iff, Prod.mk.injEq] at read
    obtain ⟨_, step, -, rfl⟩ := read
    exact (leaves_plain slashes rfl).trans (steps _ _ _ step)
  · split at read
    · rename_i slash
      have root := leaves_plain slash rfl
      split at read
      · rename_i step
        cases read
        exact root.trans (steps _ _ _ step)
      · cases read
        exact root
    · simp only [Option.map_eq_some_iff, Prod.mk.injEq] at read
      obtain ⟨_, step, -, rfl⟩ := read
      exact steps _ _ _ step

/-- All steps of a path are balanced. -/
theorem balanced_path (balanced : TakesBalanced nested) : TakesBalanced (readPath nested) := by
  intro text value rest read
  simp only [readPath, Option.bind_eq_bind, Option.bind_eq_some_iff, Option.pure_def,
    Option.some.injEq, Prod.mk.injEq] at read
  obtain ⟨_, first, -, rfl⟩ := read
  exact (balanced_firstStep balanced _ _ _ first).trans
    (leaves_many (balanced_nextStep balanced) _)

/-- Each kind of expression without an operator outside of brackets is balanced. -/
theorem balanced_primary (balanced : TakesBalanced nested) :
    TakesBalanced (readPrimary nested) := by
  intro text value rest read
  simp only [readPrimary, Option.orElse_eq_orElse, Option.orElse_eq_or, Option.or_eq_some_iff,
    Option.map_eq_some_iff, Prod.mk.injEq] at read
  rcases read with ⟨_, number, -, rfl⟩ | ⟨-, ⟨_, literal, -, rfl⟩ | ⟨-, call | ⟨-, group |
    ⟨-, path⟩⟩⟩⟩
  · exact balanced_number _ _ _ number
  · exact balanced_literal _ _ _ literal
  · exact balanced_call balanced _ _ _ call
  · exact balanced_group balanced _ _ _ group
  · exact balanced_path balanced _ _ _ path

theorem balanced_minus : TakesBalanced readMinus := by
  intro text value rest read
  simp only [readMinus, Option.map_eq_some_iff, Prod.mk.injEq] at read
  obtain ⟨_, sign, -, rfl⟩ := read
  exact leaves_spaced sign rfl rfl

/-- What is read at a level is balanced if what is read inside of brackets is. -/
theorem balanced_level (balanced : TakesBalanced nested) {level : Nat} (bound : level ≤ 7) :
    TakesBalanced (readLevel nested level) := by
  induction bound using Nat.decreasingInduction with
  | of_succ level below ih =>
      by_cases sign : level = 5
      · subst sign
        intro text value rest read
        change readNegation nested text = _ at read
        simp only [readNegation, Option.bind_eq_bind, Option.bind_eq_some_iff, Option.pure_def,
          Option.some.injEq, Prod.mk.injEq] at read
        obtain ⟨_, operand, -, rfl⟩ := read
        exact (leaves_many balanced_minus text).trans (ih _ _ _ operand)
      · obtain ⟨operator, rfl⟩ := exists_operator below sign
        rw [readLevel_operator]
        exact balanced_chain (balanced_operator operator) ih
  | self =>
      intro text value rest read
      change readTerm nested text = _ at read
      simp only [readTerm, Option.map_eq_some_iff, Prod.mk.injEq] at read
      obtain ⟨_, term, -, rfl⟩ := read
      exact ((leaves_skipSpace text).trans (balanced_primary balanced _ _ _ term)).trans
        (leaves_skipSpace _)

/-- The induction is on the depth: what stands in brackets is nested less deep. -/
theorem balanced_nested (depth : Nat) : TakesBalanced (readNested depth) := by
  induction depth with
  | zero => exact fun _ _ _ read => nomatch read
  | succ depth ih => exact balanced_level ih (Nat.zero_le 7)

end Expressions

end XPath

end XmlRecords
