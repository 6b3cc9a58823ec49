import XmlRecords.Proofs.XPath.Consumption

/-! # The descent of the grammar

What is read of a text depends on the expressions nested in it only where these are shorter than the
text. So the grammar, taken as a recursion, has one reader of expressions, and no bound on the depth
stops this reader unless it is below the length of the text.
-/

namespace XmlRecords

variable {α : Type}

namespace XPath

section Agreement

/-- The readers read the same of the ends of a text. -/
def AgreeOn (read other : Reader α) (text : List Char) : Prop :=
  ∀ inner, inner <:+ text → other inner = read inner

theorem AgreeOn.of_suffix {read other : Reader α} {text inner : List Char}
    (agree : AgreeOn read other text) (suffix : inner <:+ text) : AgreeOn read other inner :=
  fun _ within => agree _ (within.trans suffix)

/-- Readers that agree on the ends of a text go on reading the same. -/
theorem AgreeOn.many {read other : Reader α} {text : List Char} (agree : AgreeOn read other text)
    (balanced : TakesBalanced read) : many other text = many read text := by
  have bounded : ∀ limit text, AgreeOn read other text →
      repeated other limit text = repeated read limit text := by
    intro limit
    induction limit with
    | zero => exact fun _ _ => rfl
    | succ limit ih =>
        intro text agree
        rw [repeated, repeated, agree text (List.suffix_refl text)]
        cases first : read text with
        | none => rfl
        | some taken => simp only [ih _ (agree.of_suffix (balanced _ _ _ first).suffix)]
  exact bounded text.length text agree

/-- What stands behind an operator is an end of the text. -/
theorem AgreeOn.operand {operator : Reader Operator} {operand other : Reader Expression}
    {text : List Char} (agree : AgreeOn operand other text) (balanced : TakesBalanced operator) :
    AgreeOn (readOperand operator operand) (readOperand operator other) text := by
  intro inner suffix
  refine Option.bind_congr fun taken symbol => ?_
  have onward := (balanced _ _ _ symbol).suffix.trans (skipSpace_suffix inner)
  dsimp only
  rw [agree _ (((skipSpace_suffix taken.2).trans onward).trans suffix)]

/-- Chains are the same if their operands are. -/
theorem AgreeOn.chain {operator : Reader Operator} {operand other : Reader Expression}
    {text : List Char} (agree : AgreeOn operand other text) (operators : TakesBalanced operator)
    (operands : TakesBalanced operand) :
    AgreeOn (readChain operator operand) (readChain operator other) text := by
  intro inner suffix
  rw [readChain, readChain, agree inner suffix]
  refine Option.bind_congr fun taken first => ?_
  have behind := (agree.operand operators).of_suffix ((operands _ _ _ first).suffix.trans suffix)
  dsimp only
  rw [behind.many (balanced_operand operators operands)]

variable {nested other : Reader Expression} {text : List Char}

/-- The readers read the same of the ends that are shorter than the text. -/
def AgreeInside (nested other : Reader Expression) (text : List Char) : Prop :=
  ∀ inner, IsProperEnd inner text → other inner = nested inner

theorem AgreeOn.inside (agree : AgreeOn nested other text) : AgreeInside nested other text :=
  fun _ within => agree _ within.suffix

namespace AgreeInside

theorem of_suffix {inner : List Char} (agree : AgreeInside nested other text)
    (suffix : inner <:+ text) : AgreeInside nested other inner :=
  fun _ within => agree _ (within.of_suffix suffix)

/-- Behind something that has been read, all ends are shorter than the text. -/
theorem beyond {rest : List Char} (agree : AgreeInside nested other text)
    (inside : IsProperEnd rest text) : AgreeOn nested other rest :=
  fun _ within => agree _ (inside.trans_suffix within)

theorem nextArgument (agree : AgreeInside nested other text) :
    readNextArgument other text = readNextArgument nested text := by
  refine Option.bind_congr fun rest comma => ?_
  exact agree rest (isProperEnd_spaced comma (by decide))

/-- The first argument may be all that is left of the text, so the readers have to agree on that
too. -/
theorem arguments (agree : AgreeOn nested other text) (balanced : TakesBalanced nested) :
    readArguments other text = readArguments nested text := by
  rw [readArguments, readArguments, agree text (List.suffix_refl text)]
  cases first : nested text with
  | none => rfl
  | some taken =>
      have behind : AgreeOn (readNextArgument nested) (readNextArgument other) taken.2 :=
        fun _ within =>
          (agree.of_suffix (within.trans (balanced _ _ _ first).suffix)).inside.nextArgument
      simp only [behind.many (balanced_nextArgument balanced)]

/-- The arguments of a call are shorter than the call, as its name stands before them. -/
theorem call (agree : AgreeInside nested other text) (balanced : TakesBalanced nested) :
    readCall other text = readCall nested text := by
  refine Option.bind_congr fun taken named => ?_
  refine Option.bind_congr fun rest opened => ?_
  have inside := (isProperEnd_spaced opened (by decide)).of_suffix
    (consumes_fullName _ _ _ named).suffix
  rw [arguments (agree.beyond inside) balanced]

theorem group (agree : AgreeInside nested other text) :
    readGroup other text = readGroup nested text := by
  refine Option.bind_congr fun rest opened => ?_
  rw [agree rest (isProperEnd_spaced opened (by decide))]

theorem predicate (agree : AgreeInside nested other text) :
    readPredicate other text = readPredicate nested text := by
  refine Option.bind_congr fun rest opened => ?_
  rw [agree rest (isProperEnd_spaced opened (by decide))]

/-- Of a step only its predicates are nested, which are read as often as they go. -/
theorem step (agree : AgreeInside nested other text) (balanced : TakesBalanced nested) :
    readStep other text = readStep nested text := by
  rw [readStep, readStep]
  cases tested : readAxisTest text with
  | none => rfl
  | some taken =>
      have behind : AgreeOn (readPredicate nested) (readPredicate other) taken.2 :=
        fun _ within =>
          (agree.of_suffix (within.trans (balanced_axisTest _ _ _ tested).suffix)).predicate
      simp only [Option.map_some, behind.many (balanced_predicate balanced)]

/-- A step behind slashes is read as one without them. -/
theorem stepBehind (agree : AgreeInside nested other text) (balanced : TakesBalanced nested)
    {symbol : String} {rest : List Char} (read : readSymbol symbol text = some rest) :
    readStep other rest = readStep nested rest :=
  (agree.of_suffix (after?_eq_some_iff.mp read ▸ List.suffix_append _ rest)).step balanced

theorem nextStep (agree : AgreeInside nested other text) (balanced : TakesBalanced nested) :
    readNextStep other text = readNextStep nested text := by
  rw [readNextStep, readNextStep]
  cases slashes : readSymbol "//" text with
  | some rest => simp only [agree.stepBehind balanced slashes]
  | none =>
      refine Option.bind_congr fun rest slash => ?_
      rw [agree.stepBehind balanced slash]

theorem firstStep (agree : AgreeInside nested other text) (balanced : TakesBalanced nested) :
    readFirstStep other text = readFirstStep nested text := by
  rw [readFirstStep, readFirstStep]
  cases slashes : readSymbol "//" text with
  | some rest => simp only [agree.stepBehind balanced slashes]
  | none =>
      cases slash : readSymbol "/" text with
      | some rest => simp only [agree.stepBehind balanced slash]
      | none => simp only [agree.step balanced]

/-- A path is read step by step, of which each is read the same. -/
theorem path (agree : AgreeInside nested other text) (balanced : TakesBalanced nested) :
    readPath other text = readPath nested text := by
  rw [readPath, readPath, agree.firstStep balanced]
  refine Option.bind_congr fun taken first => ?_
  have behind : AgreeOn (readNextStep nested) (readNextStep other) taken.2 := fun _ within =>
    (agree.of_suffix (within.trans (balanced_firstStep balanced _ _ _ first).suffix)).nextStep
      balanced
  dsimp only
  rw [behind.many (balanced_nextStep balanced)]

/-- All alternatives are read the same, so that the same one is taken. -/
theorem primary (agree : AgreeInside nested other text) (balanced : TakesBalanced nested) :
    readPrimary other text = readPrimary nested text := by
  rw [readPrimary, readPrimary, agree.call balanced, agree.group, agree.path balanced]

/-- At every level a reader is asked only for what is nested in the text. -/
theorem level (agree : AgreeInside nested other text) (balanced : TakesBalanced nested)
    {level : Nat} (bound : level ≤ 7) :
    readLevel other level text = readLevel nested level text := by
  induction bound using Nat.decreasingInduction generalizing text with
  | of_succ level below ih =>
      by_cases sign : level = 5
      · subst sign
        change readNegation other text = readNegation nested text
        have union := ih (agree.of_suffix (leaves_many balanced_minus text).suffix)
        change readUnion other _ = readUnion nested _ at union
        rw [readNegation, readNegation]
        simp only [union]
      · obtain ⟨operator, rfl⟩ := exists_operator below sign
        rw [readLevel_operator, readLevel_operator]
        have tighter : AgreeOn (readLevel nested (operator.level + 1))
            (readLevel other (operator.level + 1)) text := fun _ within =>
          ih (agree.of_suffix within)
        exact tighter.chain (balanced_operator operator) (balanced_level balanced below) text
          (List.suffix_refl text)
  | self =>
      change readTerm other text = readTerm nested text
      rw [readTerm, readTerm, (agree.of_suffix (skipSpace_suffix text)).primary balanced]

end AgreeInside

end Agreement

section Productions

/-- What the grammar reads, with the type of what is read. Operands behind an operator, arguments
behind a comma, predicates, steps behind slashes and minus signs are read as often as it goes. -/
inductive Production : Type → Type
  | level (tightness : Fin 8) : Production Expression
  | operator (kind : Operator) : Production Operator
  | operand (kind : Operator) : Production (Operator × Expression)
  | sign : Production Unit
  | primary : Production Expression
  | number : Production Float
  | literal : Production String
  | group : Production Expression
  | call : Production Expression
  | argument : Production Expression
  | path : Production Expression
  | nextStep : Production (List Step)
  | step : Production Step
  | axis : Production Axis
  | nodeTest : Production NodeTest
  | predicate : Production Expression
  | name : Production (List Char)
  | localName : Production (List Char)
  | fullName : Production (List Char)

namespace Production

/-- The reader of a production, where `nested` reads the expressions nested in it. -/
def read (nested : Reader Expression) : Production α → Reader α
  | level tightness => readLevel nested tightness
  | operator kind => readOperator kind.level
  | operand kind => readNextOperand nested kind.level
  | sign => readMinus
  | primary => readPrimary nested
  | number => readNumber
  | literal => readLiteral
  | group => readGroup nested
  | call => readCall nested
  | argument => readNextArgument nested
  | path => readPath nested
  | nextStep => readNextStep nested
  | step => readStep nested
  | axis => readAxis
  | nodeTest => readNodeTest
  | predicate => readPredicate nested
  | name => readName
  | localName => readLocalName
  | fullName => readFullName

variable {nested other : Reader Expression} {text : List Char}

/-- Every production takes something off its text. -/
theorem consumes (production : Production α) (balanced : TakesBalanced nested) :
    Consumes (production.read nested) := by
  cases production with
  | level tightness => exact consumes_level balanced (Nat.le_of_lt_succ tightness.isLt)
  | operator kind => exact consumes_operator kind
  | operand kind => exact consumes_operand kind (balanced_level balanced kind.level_lt.1)
  | sign => exact consumes_minus
  | primary => exact consumes_primary balanced
  | number => exact consumes_number
  | literal => exact consumes_literal
  | group => exact consumes_group balanced
  | call => exact consumes_call balanced
  | argument => exact consumes_nextArgument balanced
  | path => exact consumes_path balanced
  | nextStep => exact consumes_nextStep balanced
  | step => exact consumes_step balanced
  | axis => exact consumes_axis
  | nodeTest => exact consumes_nodeTest
  | predicate => exact consumes_predicate balanced
  | name => exact consumes_name
  | localName => exact consumes_localName
  | fullName => exact consumes_fullName

/-- The expressions nested in a text are shorter than the text. -/
theorem read_congr (production : Production α) (agree : AgreeInside nested other text)
    (balanced : TakesBalanced nested) :
    production.read other text = production.read nested text := by
  cases production with
  | level tightness => exact agree.level balanced (Nat.le_of_lt_succ tightness.isLt)
  | operand kind =>
      have tighter : AgreeOn (readLevel nested (kind.level + 1)) (readLevel other (kind.level + 1))
          text := fun _ within => (agree.of_suffix within).level balanced kind.level_lt.1
      exact tighter.operand (balanced_operator kind) text (List.suffix_refl text)
  | primary => exact agree.primary balanced
  | group => exact agree.group
  | call => exact agree.call balanced
  | argument => exact agree.nextArgument
  | path => exact agree.path balanced
  | nextStep => exact agree.nextStep balanced
  | step => exact agree.step balanced
  | predicate => exact agree.predicate
  | operator | sign | number | literal | axis | nodeTest | name | localName | fullName => rfl

end Production

end Productions

section Depth

/-- The reader of the grammar takes balanced brackets off a text, since each of its bounds does. -/
theorem balanced_expression : TakesBalanced readExpression :=
  fun text => balanced_nested (text.length + 1) text

/-- One more step in depth reads nothing else of a text that is not longer than the depth. -/
theorem readNested_succ {depth : Nat} {text : List Char} (enough : text.length ≤ depth) :
    readNested (depth + 1) text = readNested depth text := by
  induction depth generalizing text with
  | zero =>
      obtain rfl := List.eq_nil_of_length_eq_zero (Nat.le_zero.mp enough)
      rfl
  | succ depth ih =>
      have agree : AgreeInside (readNested depth) (readNested (depth + 1)) text :=
        fun _ inside => ih (Nat.le_of_lt_succ (Nat.lt_of_lt_of_le inside.shorter enough))
      exact agree.level (balanced_nested depth) (Nat.zero_le 7)

/-- A bound on the depth that is not below the length of the text does not stop the reader. -/
theorem readNested_eq_readExpression {depth : Nat} {text : List Char}
    (enough : text.length ≤ depth) : readNested depth text = readExpression text := by
  rw [readExpression, readNested_succ (Nat.le_refl _)]
  induction enough with
  | refl => rfl
  | step enough ih => rw [readNested_succ enough, ih]

/-- A bound that is the length of a text is enough for all that is shorter. -/
theorem readExpression_agrees (text : List Char) :
    AgreeInside readExpression (readNested text.length) text :=
  fun _ inside => readNested_eq_readExpression (Nat.le_of_lt inside.shorter)

/-- Expressions are read with expressions nested in them, to any depth. -/
theorem readExpression_eq (text : List Char) :
    readExpression text = readDisjunction readExpression text :=
  (readExpression_agrees text).level balanced_expression (Nat.zero_le 7)

/-- A reader that reads the expressions nested in an expression by itself reads what any other such
reader does. -/
theorem readExpression_unique {read : Reader Expression}
    (descends : ∀ text, read text = readDisjunction read text) : read = readExpression := by
  refine funext (IsProperEnd.induction fun text before => ?_)
  have agree : AgreeInside readExpression read text := before
  rw [descends, readExpression_eq]
  exact agree.level balanced_expression (Nat.zero_le 7)

end Depth

section Signs

variable {nested : Reader Expression} {text : List Char}

/-- Reads a union, or a minus sign and behind it what `negated` reads. -/
def readSigned (nested negated : Reader Expression) (text : List Char) :
    Option (Expression × List Char) :=
  (do let (_, rest) ← readMinus text
      let (operand, rest) ← negated rest
      return (.negate operand, rest))
    <|> readUnion nested text

/-- What is read of a text whose signs have been taken off. -/
theorem readNegation_of_many {signs : List Unit} {rest : List Char}
    (taken : many readMinus text = (signs, rest)) :
    readNegation nested text = (readUnion nested rest).map fun union =>
      (signs.foldr (fun _ negated => .negate negated) union.1, union.2) := by
  rw [readNegation, taken]
  dsimp only
  cases readUnion nested rest <;> rfl

/-- Minus signs are read one by one, each with what comes behind it. -/
theorem readNegation_eq (text : List Char) :
    readNegation nested text = readSigned nested (readNegation nested) text := by
  rw [readSigned]
  cases sign : readMinus text with
  | none =>
      rw [readNegation_of_many (Repeats.stop sign).many_eq]
      cases readUnion nested text <;> rfl
  | some taken =>
      have behind := Repeats.of_many (fun _ _ _ read => (consumes_minus _ _ _ read).shorter) taken.2
      have whole := Repeats.next sign (consumes_minus _ _ _ sign).shorter behind
      rw [readUnion_eq_none_of_readMinus sign, readNegation_of_many whole.many_eq]
      simp only [Option.bind_eq_bind, Option.bind_some, readNegation_of_many behind.many_eq]
      cases readUnion nested (many readMinus taken.2).2 <;> rfl

/-- The descent through signs has only one solution, as each sign shortens the text. -/
theorem readNegation_unique {read : Reader Expression}
    (descends : ∀ text, read text = readSigned nested read text) : read = readNegation nested := by
  refine funext (IsProperEnd.induction fun text before => ?_)
  rw [descends, readNegation_eq, readSigned, readSigned]
  cases sign : readMinus text with
  | none => rfl
  | some taken =>
      simp only [Option.bind_eq_bind, Option.bind_some, before _ (consumes_minus _ _ _ sign)]

end Signs

section Endings

/-- The parser with a bound on the depth that is not taken from the text. -/
def Expression.parseWithin (depth : Nat) (source : String) : Except Error Expression :=
  let text := Text.trim source.toList
  match readNested depth text with
  | some (expression, []) => .ok expression
  | some (_, rest) => .error (.trailing source rest)
  | none => .error (.unreadable source ((readSymbol "//" text).getD text))

theorem length_trim_le (text : List Char) : (Text.trim text).length ≤ text.length := by
  have front : Text.trimStart text <:+ text := List.dropWhile_suffix Text.isBlank
  have back : (Text.trimStart text).reverse.dropWhile Text.isBlank <:+
      (Text.trimStart text).reverse := List.dropWhile_suffix Text.isBlank
  have shorter := back.length_le
  rw [List.length_reverse] at shorter
  rw [Text.trim, Text.trimEnd, List.length_reverse]
  exact shorter.trans front.length_le

/-- A bound that is not below the length of the text is never met. -/
theorem Expression.parseWithin_eq {depth : Nat} {source : String} (enough : source.length ≤ depth) :
    Expression.parseWithin depth source = Expression.parse source := by
  have within : (Text.trim source.toList).length ≤ depth :=
    (length_trim_le source.toList).trans (String.length_toList.trans_le enough)
  have same := readNested_eq_readExpression within
  unfold Expression.parseWithin Expression.parse
  dsimp only
  generalize readNested depth (Text.trim source.toList) = bounded at same ⊢
  generalize readExpression (Text.trim source.toList) = outcome at same ⊢
  subst same
  rcases bounded with _ | ⟨expression, _ | ⟨char, rest⟩⟩ <;> rfl

/-- A reader that consumes is repeated until it fails, whatever the bound. -/
theorem Consumes.repeated_eq {read : Reader α} (consumes : Consumes read) {text : List Char}
    {limit : Nat} (enough : text.length ≤ limit) :
    repeated read limit text = many read text ∧ read (many read text).2 = none := by
  have shorter : ∀ text value rest, read text = some (value, rest) → rest.length < text.length :=
    fun text value rest taken => (consumes text value rest taken).shorter
  have repeats := Repeats.of_many shorter text
  exact ⟨repeats.repeated_eq enough, repeats.fails⟩

/-- The descent through the grammar ends on every text. Each production takes a character at least
and leaves an end of the text, so that what is repeated is repeated until it fails and not up to a
bound. What a production reads of a text depends on the expressions nested in it only where these
are shorter. Therefore each of the two recursions of the grammar, that behind a minus sign and that
into brackets and arguments, has one reader that follows it, and any bound on the depth that is not
below the length of the text gives what this reader reads. -/
theorem every_descent_ends :
    (∀ (α : Type) (production : Production α),
      Consumes (production.read readExpression) ∧
        (∀ text limit, text.length ≤ limit →
          repeated (production.read readExpression) limit text =
              many (production.read readExpression) text ∧
            production.read readExpression (many (production.read readExpression) text).2 =
              none) ∧
        ∀ text other, AgreeInside readExpression other text →
          production.read other text = production.read readExpression text) ∧
      (∀ read : Reader Expression,
        (∀ text, read text = readSigned readExpression read text) ↔
          read = readNegation readExpression) ∧
      (∀ read : Reader Expression,
        (∀ text, read text = readDisjunction read text) ↔ read = readExpression) ∧
      (∀ text depth, text.length ≤ depth → readNested depth text = readExpression text) ∧
      ∀ source depth, source.length ≤ depth →
        Expression.parseWithin depth source = Expression.parse source := by
  refine ⟨fun α production => ⟨?consumes, ?repeats, ?inside⟩, fun read => ⟨?sign, ?signs⟩,
    fun read => ⟨?bracket, ?brackets⟩, ?depth, ?parse⟩
  case consumes => exact production.consumes balanced_expression
  case repeats =>
    intro text limit enough
    exact (production.consumes balanced_expression).repeated_eq enough
  case inside =>
    intro text other agree
    exact production.read_congr agree balanced_expression
  case sign => exact readNegation_unique
  case signs =>
    rintro rfl
    exact readNegation_eq
  case bracket => exact readExpression_unique
  case brackets =>
    rintro rfl
    exact readExpression_eq
  case depth => exact fun _ _ => readNested_eq_readExpression
  case parse => exact fun _ _ => Expression.parseWithin_eq

theorem every_descent_ends_signs :
    Production.group.read (readNested 4) "(-1)".toList =
        Production.group.read readExpression "(-1)".toList ∧
      Expression.parseWithin 5 "-(-1)" = Expression.parse "-(-1)" :=
  ⟨(every_descent_ends.1 Expression .group).2.2 _ _ (readExpression_agrees _),
    every_descent_ends.2.2.2.2 _ 5 (by decide)⟩

end Endings

end XPath

end XmlRecords
