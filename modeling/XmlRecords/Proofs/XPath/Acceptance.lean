import XmlRecords.Proofs.Binary64.Counting
import XmlRecords.Proofs.XPath.RoundTrip

/-! # What the parser accepts

An expression that has been parsed is well formed in all its parts: its literals leave a quote to
put around them, its numbers are not negative, its relative paths have a step, and its names are
names.
The proof goes through the readers of the grammar, each of which yields nothing but values of its
kind if the reader for nested expressions does (`Yields`). Well-formed expressions without fractions
are those that can be printed, so what has been parsed can be printed and parsed again
(`Expression.parse_accepts`).
-/

namespace XmlRecords

namespace XPath

section Parts

mutual

/-- An expression and all expressions in it: its operands, its arguments, the predicates of its
steps, and what is in these. -/
def Expression.parts : Expression → List Expression
  | .literal text => [.literal text]
  | .number value => [.number value]
  | .path absolute steps => .path absolute steps :: Step.partsOfAll steps
  | .call name arguments => .call name arguments :: Expression.partsOfAll arguments
  | .binary operator left right => .binary operator left right :: (left.parts ++ right.parts)
  | .negate operand => .negate operand :: operand.parts

def Step.parts : Step → List Expression
  | .mk _ _ predicates => Expression.partsOfAll predicates

def Expression.partsOfAll : List Expression → List Expression
  | [] => []
  | first :: others => first.parts ++ Expression.partsOfAll others

def Step.partsOfAll : List Step → List Expression
  | [] => []
  | first :: others => first.parts ++ Step.partsOfAll others

end

/-- The property holds of an expression and of all expressions in it. -/
def Expression.Everywhere (property : Expression → Prop) (expression : Expression) : Prop :=
  ∀ part ∈ expression.parts, property part

def Step.Everywhere (property : Expression → Prop) (step : Step) : Prop :=
  ∀ part ∈ step.parts, property part

variable {property : Expression → Prop}

theorem Expression.partsOfAll_eq (expressions : List Expression) :
    partsOfAll expressions = expressions.flatMap parts := by
  induction expressions with
  | nil => rfl
  | cons first others ih => rw [partsOfAll, ih, List.flatMap_cons]

theorem Step.partsOfAll_eq (steps : List Step) : partsOfAll steps = steps.flatMap parts := by
  induction steps with
  | nil => rfl
  | cons first others ih => rw [partsOfAll, ih, List.flatMap_cons]

namespace Expression

theorem everywhere_literal {text : String} :
    (literal text).Everywhere property ↔ property (.literal text) := by
  rw [Everywhere, parts, List.forall_mem_singleton]

theorem everywhere_number {value : Float} :
    (number value).Everywhere property ↔ property (.number value) := by
  rw [Everywhere, parts, List.forall_mem_singleton]

/-- A path has no parts but itself and those of its predicates. -/
theorem everywhere_path {absolute : Bool} {steps : List Step} :
    (path absolute steps).Everywhere property ↔
      property (.path absolute steps) ∧ ∀ step ∈ steps, step.Everywhere property := by
  rw [Everywhere, parts, List.forall_mem_cons, Step.partsOfAll_eq, List.forall_mem_flatMap]
  rfl

/-- The parts of a call are the call itself and those of its arguments. -/
theorem everywhere_call {name : String} {arguments : List Expression} :
    (call name arguments).Everywhere property ↔
      property (.call name arguments) ∧ ∀ argument ∈ arguments, argument.Everywhere property := by
  rw [Everywhere, parts, List.forall_mem_cons, partsOfAll_eq, List.forall_mem_flatMap]
  rfl

theorem everywhere_binary {operator : Operator} {left right : Expression} :
    (binary operator left right).Everywhere property ↔
      property (.binary operator left right) ∧ left.Everywhere property ∧
        right.Everywhere property := by
  rw [Everywhere, parts, List.forall_mem_cons, List.forall_mem_append]
  rfl

theorem everywhere_negate {operand : Expression} :
    (negate operand).Everywhere property ↔
      property (.negate operand) ∧ operand.Everywhere property := by
  rw [Everywhere, parts, List.forall_mem_cons]
  rfl

end Expression

/-- The parts of a step are those of its predicates, as the step itself is no expression. -/
theorem Step.everywhere_mk {axis : Axis} {test : NodeTest} {predicates : List Expression} :
    (mk axis test predicates).Everywhere property ↔
      ∀ predicate ∈ predicates, predicate.Everywhere property := by
  rw [Everywhere, parts, Expression.partsOfAll_eq, List.forall_mem_flatMap]
  rfl

end Parts

section WellFormed

/-- What the step looks for on its axis. -/
def Step.test : Step → NodeTest
  | mk _ test _ => test

/-- If the test looks for a name, it is one. -/
def NodeTest.IsNamed (test : NodeTest) : Prop :=
  ∀ word, test = .name word → isName word.toList = true

/-- The expression itself is well formed, whatever is in it. A literal does not contain both quotes,
a number is one and is not negative, a relative path has a step, all paths look for names without
a colon, and a function has a name, with a prefix or without one, that is not that of a node
type. -/
def Expression.IsWellFormed : Expression → Prop
  | literal text => ¬('\'' ∈ text.toList ∧ '"' ∈ text.toList)
  | number value => Binary64.isNegative value = false ∧ value.isNaN = false
  | path absolute steps =>
      (absolute = true ∨ steps ≠ []) ∧ ∀ step ∈ steps, step.test.IsNamed
  | call name _ =>
      isNodeType name = false ∧
        (isName name.toList = true ∨
          ∃ first second, name.toList = first ++ ':' :: second ∧
            isName first = true ∧ isName second = true)
  | _ => True

/-- The expression can be printed, whatever is in it: it is well formed, and natural if it is a
number. -/
structure Expression.IsWritable (expression : Expression) : Prop where
  wellFormed : expression.IsWellFormed
  natural : ∀ value, expression = .number value →
    ∃ number < 2 ^ 53, value = Binary64.ofNat number

/-- Only the name that a test looks for could keep it from being printed. -/
theorem NodeTest.IsNamed.isPrintable {test : NodeTest} (named : test.IsNamed) :
    test.isPrintable := by
  cases test with
  | name word => exact named word rfl
  | _ => rfl

mutual

/-- An expression can be printed if it can in all its parts. -/
theorem Expression.isPrintable_of_everywhere :
    ∀ expression : Expression, expression.Everywhere Expression.IsWritable → expression.isPrintable
  | .literal text, writable => by
      have free := not_and_or.mp (Expression.everywhere_literal.mp writable).wellFormed
      simpa [Expression.isPrintable] using free
  | .number value, writable => by
      obtain ⟨number, bound, rfl⟩ := (Expression.everywhere_number.mp writable).natural value rfl
      rw [Expression.isPrintable, Binary64.toNat?_ofNat bound]
      exact decide_eq_true bound
  | .path absolute steps, writable => by
      obtain ⟨⟨⟨present, named⟩, _⟩, inside⟩ := Expression.everywhere_path.mp writable
      refine Bool.and_eq_true_iff.mpr ⟨?_, Step.areAllPrintable_of_everywhere steps
        fun step member => ⟨named step member, inside step member⟩⟩
      simpa using present
  | .call name arguments, writable => by
      obtain ⟨⟨⟨ordinary, named⟩, _⟩, inside⟩ := Expression.everywhere_call.mp writable
      exact Bool.and_eq_true_iff.mpr ⟨isFunctionName_of_cases ordinary named,
        Expression.areAllPrintable_of_everywhere arguments inside⟩
  | .binary operator left right, writable => by
      obtain ⟨_, onLeft, onRight⟩ := Expression.everywhere_binary.mp writable
      exact Bool.and_eq_true_iff.mpr ⟨Expression.isPrintable_of_everywhere left onLeft,
        Expression.isPrintable_of_everywhere right onRight⟩
  | .negate operand, writable =>
      Expression.isPrintable_of_everywhere operand (Expression.everywhere_negate.mp writable).2

/-- Of a step, the name it looks for has to be one as well. -/
theorem Step.isPrintable_of_everywhere :
    ∀ step : Step, step.test.IsNamed → step.Everywhere Expression.IsWritable → step.isPrintable
  | .mk _ _ predicates, named, writable =>
      Bool.and_eq_true_iff.mpr ⟨NodeTest.IsNamed.isPrintable named,
        Expression.areAllPrintable_of_everywhere predicates (Step.everywhere_mk.mp writable)⟩

theorem Expression.areAllPrintable_of_everywhere : ∀ expressions : List Expression,
    (∀ expression ∈ expressions, expression.Everywhere Expression.IsWritable) →
      Expression.areAllPrintable expressions
  | [], _ => rfl
  | first :: others, writable => by
      obtain ⟨here, there⟩ := List.forall_mem_cons.mp writable
      exact Bool.and_eq_true_iff.mpr ⟨Expression.isPrintable_of_everywhere first here,
        Expression.areAllPrintable_of_everywhere others there⟩

theorem Step.areAllPrintable_of_everywhere : ∀ steps : List Step,
    (∀ step ∈ steps, step.test.IsNamed ∧ step.Everywhere Expression.IsWritable) →
      Step.areAllPrintable steps
  | [], _ => rfl
  | first :: others, writable => by
      obtain ⟨⟨named, here⟩, there⟩ := List.forall_mem_cons.mp writable
      exact Bool.and_eq_true_iff.mpr ⟨Step.isPrintable_of_everywhere first named here,
        Step.areAllPrintable_of_everywhere others there⟩

end

end WellFormed

section Words

/-- Whatever the reader reads has the property. -/
def Yields {α : Type} (property : α → Prop) (read : Reader α) : Prop :=
  ∀ text value rest, read text = some (value, rest) → property value

/-- Reading again and again yields nothing else than reading once. -/
theorem Yields.of_mem_many {α : Type} {property : α → Prop} {read : Reader α}
    (yields : Yields property read) (text : List Char) :
    ∀ value ∈ (many read text).1, property value := by
  intro value member
  obtain ⟨here, rest, taken⟩ := exists_read_of_mem_many member
  exact yields here value rest taken

/-- A name is read from its first character on, as far as characters of names go. -/
theorem yields_name : Yields (fun name => isName name = true) readName := by
  intro text name rest read
  cases text with
  | nil => cases read
  | cons char text =>
      rw [readName] at read
      split at read
      · rename_i start
        rw [List.span_eq_takeWhile_dropWhile,
          List.takeWhile_cons_of_pos (isNameChar_of_isNameStart start)] at read
        cases read
        exact Bool.and_eq_true_iff.mpr ⟨start, List.all_takeWhile⟩
      · cases read

/-- Behind a colon a name is read as at the beginning. -/
theorem yields_localPart : Yields (fun name => isName name = true) readLocalPart := by
  intro text name rest read
  unfold readLocalPart at read
  split at read
  · exact yields_name _ _ _ read
  · cases read

/-- With its prefix taken away, a name is a name without a colon. -/
theorem yields_localName : Yields (fun name => isName name = true) readLocalName := by
  intro text name rest read
  unfold readLocalName at read
  split at read
  · cases read
  · rename_i named
    split at read
    · cases read
      exact yields_name _ _ _ named
    · rename_i localRead
      cases read
      exact yields_localPart _ _ _ localRead

/-- With its prefix, a name is one name or two with a colon between them. -/
theorem yields_fullName :
    Yields (fun name => isName name = true ∨ ∃ first second, name = first ++ ':' :: second ∧
      isName first = true ∧ isName second = true) readFullName := by
  intro text name rest read
  unfold readFullName at read
  split at read
  · cases read
  · rename_i named
    have before := yields_name _ _ _ named
    split at read
    · cases read
      exact .inl before
    · rename_i localRead
      cases read
      exact .inr ⟨_, _, rfl, before, yields_localPart _ _ _ localRead⟩

/-- All numbers that are read are the values of decimal numbers. -/
theorem yields_number :
    Yields (fun value => Binary64.isNegative value = false ∧ value.isNaN = false) readNumber := by
  intro text value rest read
  unfold readNumber at read
  split at read
  · split at read
    · cases read
    · cases read
      exact Binary64.nonneg_ofDecimal _ _
  · cases read
  · split at read
    all_goals
      cases read
      exact Binary64.nonneg_ofDecimal _ _
  · cases read
    exact Binary64.nonneg_ofDecimal _ _

/-- The content of a literal ends at the first quote of its kind. -/
theorem not_mem_of_readQuoted {quote : Char} {text rest : List Char} {content : String}
    (read : readQuoted quote text = some (content, rest)) : quote ∉ content.toList := by
  unfold readQuoted at read
  split at read
  · cases read
  · rename_i row last behind parts
    cases read
    have other := of_mem_span (· != quote) text
    rw [parts] at other
    rw [String.toList_ofList]
    exact fun member => absurd rfl (bne_iff_ne.mp (other quote member))

/-- A literal does not contain the quote that is around it. -/
theorem yields_literal :
    Yields (fun content => ¬('\'' ∈ content.toList ∧ '"' ∈ content.toList)) readLiteral := by
  intro text content rest read
  unfold readLiteral at read
  split at read
  · exact fun both => not_mem_of_readQuoted read both.1
  · exact fun both => not_mem_of_readQuoted read both.2
  · cases read

/-- A test looks for a name only if none of the other tests is read in front, and then the name is
read without its prefix. -/
theorem yields_nodeTest : Yields NodeTest.IsNamed readNodeTest := by
  intro text test rest read
  simp only [readNodeTest, Option.orElse_eq_orElse, Option.orElse_eq_or, Option.or_eq_some_iff,
    Option.map_eq_some_iff, Prod.mk.injEq] at read
  rcases read with ⟨_, _, rfl, _⟩ | ⟨-, ⟨_, _, rfl, _⟩ | ⟨-, ⟨_, _, rfl, _⟩ |
    ⟨-, ⟨_, _, rfl, _⟩ | ⟨-, ⟨name, _⟩, named, rfl, _⟩⟩⟩⟩
  · rintro word ⟨⟩
  · rintro word ⟨⟩
  · rintro word ⟨⟩
  · rintro word ⟨⟩
  · rintro word ⟨⟩
    rw [String.toList_ofList]
    exact yields_localName _ _ _ named

/-- All three ways to write an axis leave the test as it is read. -/
theorem yields_axisTest : Yields (fun taken => taken.2.IsNamed) readAxisTest := by
  intro text value rest read
  simp only [readAxisTest, Option.orElse_eq_orElse, Option.orElse_eq_or, Option.or_eq_some_iff,
    Option.bind_eq_bind, Option.bind_eq_some_iff, Option.pure_def, Option.some.injEq,
    Prod.mk.injEq] at read
  rcases read with ⟨_, _, _, test, rfl, _⟩ | ⟨-, ⟨_, _, _, test, rfl, _⟩ | ⟨-, _, test, rfl, _⟩⟩
  · exact yields_nodeTest _ _ _ test
  · exact yields_nodeTest _ _ _ test
  · exact yields_nodeTest _ _ _ test

end Words

section Expressions

/-- The expression is well formed in all its parts. -/
def Expression.IsAccepted (expression : Expression) : Prop :=
  expression.Everywhere Expression.IsWellFormed

/-- The step is well formed, and so are its predicates in all their parts. -/
structure Step.IsAccepted (step : Step) : Prop where
  named : step.test.IsNamed
  inside : step.Everywhere Expression.IsWellFormed

/-- A path is put together from accepted steps. -/
theorem Expression.isAccepted_path {absolute : Bool} {steps : List Step}
    (present : absolute = true ∨ steps ≠ []) (accepted : ∀ step ∈ steps, step.IsAccepted) :
    (path absolute steps).IsAccepted :=
  everywhere_path.mpr ⟨⟨present, fun step member => (accepted step member).named⟩,
    fun step member => (accepted step member).inside⟩

/-- The steps that abbreviations mean look for any node and have no predicates. -/
theorem Step.isAccepted_bare (axis : Axis) : (mk axis .node []).IsAccepted :=
  ⟨nofun, Step.everywhere_mk.mpr (List.forall_mem_nil _)⟩

/-- Operands of one precedence, grouped to the left, make up an accepted expression. -/
theorem yields_chain {operator : Reader Operator} {operand : Reader Expression}
    (yields : Yields Expression.IsAccepted operand) :
    Yields Expression.IsAccepted (readChain operator operand) := by
  have operands : Yields (fun taken => taken.2.IsAccepted) (readOperand operator operand) := by
    intro text value rest read
    simp only [readOperand, Option.bind_eq_bind, Option.bind_eq_some_iff, Option.pure_def,
      Option.some.injEq, Prod.mk.injEq] at read
    obtain ⟨_, _, _, right, rfl, _⟩ := read
    exact yields _ _ _ right
  intro text value rest read
  simp only [readChain, Option.bind_eq_bind, Option.bind_eq_some_iff, Option.pure_def,
    Option.some.injEq, Prod.mk.injEq] at read
  obtain ⟨⟨first, behind⟩, here, rfl, _⟩ := read
  -- The operands read so far make up an accepted expression, whatever comes behind them.
  have grouped (tail : List (Operator × Expression)) (left : Expression) (onLeft : left.IsAccepted)
      (each : ∀ taken ∈ tail, taken.2.IsAccepted) :
      (tail.foldl (fun left taken => Expression.binary taken.1 left taken.2) left).IsAccepted := by
    induction tail generalizing left with
    | nil => exact onLeft
    | cons taken tail ih =>
        obtain ⟨onRight, others⟩ := List.forall_mem_cons.mp each
        exact ih _ (Expression.everywhere_binary.mpr ⟨trivial, onLeft, onRight⟩) others
  exact grouped _ first (yields _ _ _ here) (operands.of_mem_many behind)

variable {nested : Reader Expression} (yields : Yields Expression.IsAccepted nested)

include yields

theorem yields_nextArgument : Yields Expression.IsAccepted (readNextArgument nested) := by
  intro text value rest read
  simp only [readNextArgument, Option.bind_eq_bind, Option.bind_eq_some_iff] at read
  obtain ⟨_, _, argument⟩ := read
  exact yields _ _ _ argument

theorem isAccepted_of_mem_readArguments (text : List Char) :
    ∀ argument ∈ (readArguments nested text).1, argument.IsAccepted := by
  unfold readArguments
  split
  · exact List.forall_mem_nil _
  · rename_i first
    exact List.forall_mem_cons.mpr ⟨yields _ _ _ first, (yields_nextArgument yields).of_mem_many _⟩

/-- The name of a function is read as that of a node, and that of a node type is refused. -/
theorem yields_call : Yields Expression.IsAccepted (readCall nested) := by
  intro text value rest read
  simp only [readCall, Option.bind_eq_bind, Option.bind_eq_some_iff, Option.pure_def,
    Option.some.injEq, Prod.mk.injEq, Option.guard_eq_some', Bool.not_eq_true'] at read
  obtain ⟨_, named, _, _, _, ordinary, _, _, rfl, _⟩ := read
  have name := yields_fullName _ _ _ named
  refine Expression.everywhere_call.mpr ⟨⟨ordinary, ?_⟩, isAccepted_of_mem_readArguments yields _⟩
  rwa [String.toList_ofList]

/-- What stands between brackets is accepted if the reader for it reads nothing else. -/
theorem yields_between (opening closing : String) :
    Yields Expression.IsAccepted fun text => do
      let (content, rest) ← nested (← readSpaced opening text)
      let rest ← readSpaced closing rest
      return (content, rest) := by
  intro text value rest read
  simp only [Option.bind_eq_bind, Option.bind_eq_some_iff, Option.pure_def, Option.some.injEq,
    Prod.mk.injEq] at read
  obtain ⟨_, _, _, content, _, _, rfl, _⟩ := read
  exact yields _ _ _ content

/-- An abbreviated step is a bare one, and the others have a test and predicates that were read. -/
theorem yields_step : Yields Step.IsAccepted (readStep nested) := by
  intro text value rest read
  simp only [readStep, Option.orElse_eq_orElse, Option.orElse_eq_or, Option.or_eq_some_iff,
    Option.map_eq_some_iff, Prod.mk.injEq] at read
  rcases read with ⟨_, _, rfl, _⟩ | ⟨-, ⟨_, _, rfl, _⟩ | ⟨-, _, test, rfl, _⟩⟩
  · exact Step.isAccepted_bare .parent
  · exact Step.isAccepted_bare .self
  · have predicates : Yields Expression.IsAccepted (readPredicate nested) :=
      yields_between yields "[" "]"
    exact ⟨yields_axisTest _ _ _ test, Step.everywhere_mk.mpr (predicates.of_mem_many _)⟩

/-- A slash is followed by one step, and two slashes mean one more in front of it. -/
theorem yields_nextStep :
    Yields (fun steps => ∀ step ∈ steps, step.IsAccepted) (readNextStep nested) := by
  have steps := yields_step yields
  intro text value rest read
  unfold readNextStep at read
  split at read
  · simp only [Option.map_eq_some_iff, Prod.mk.injEq] at read
    obtain ⟨_, step, rfl, _⟩ := read
    exact List.forall_mem_cons.mpr ⟨Step.isAccepted_bare .descendantOrSelf,
      List.forall_mem_singleton.mpr (steps _ _ _ step)⟩
  · simp only [Option.bind_eq_bind, Option.bind_eq_some_iff, Option.pure_def, Option.some.injEq,
      Prod.mk.injEq] at read
    obtain ⟨_, _, _, step, rfl, _⟩ := read
    exact List.forall_mem_singleton.mpr (steps _ _ _ step)

/-- Only from the root a path can begin without a step. -/
theorem yields_firstStep :
    Yields (fun taken => (taken.1 = true ∨ taken.2 ≠ []) ∧ ∀ step ∈ taken.2, step.IsAccepted)
      (readFirstStep nested) := by
  have steps := yields_step yields
  intro text value rest read
  unfold readFirstStep at read
  split at read
  · simp only [Option.map_eq_some_iff, Prod.mk.injEq] at read
    obtain ⟨_, step, rfl, _⟩ := read
    exact ⟨.inl rfl, List.forall_mem_cons.mpr ⟨Step.isAccepted_bare .descendantOrSelf,
      List.forall_mem_singleton.mpr (steps _ _ _ step)⟩⟩
  · split at read
    · split at read
      · rename_i step
        cases read
        exact ⟨.inl rfl, List.forall_mem_singleton.mpr (steps _ _ _ step)⟩
      · cases read
        exact ⟨.inl rfl, List.forall_mem_nil _⟩
    · simp only [Option.map_eq_some_iff, Prod.mk.injEq] at read
      obtain ⟨_, step, rfl, _⟩ := read
      exact ⟨.inr (List.cons_ne_nil _ _), List.forall_mem_singleton.mpr (steps _ _ _ step)⟩

/-- All steps of a path are accepted, and one of them is there unless the path begins at the root.
-/
theorem yields_path : Yields Expression.IsAccepted (readPath nested) := by
  intro text value rest read
  simp only [readPath, Option.bind_eq_bind, Option.bind_eq_some_iff, Option.pure_def,
    Option.some.injEq, Prod.mk.injEq] at read
  obtain ⟨⟨⟨absolute, first⟩, behind⟩, here, rfl, _⟩ := read
  obtain ⟨present, accepted⟩ := yields_firstStep yields _ _ _ here
  refine Expression.isAccepted_path (present.imp_right fun some none => ?_) ?_
  · exact some (List.append_eq_nil_iff.mp none).1
  · refine List.forall_mem_append.mpr ⟨accepted, fun step member => ?_⟩
    obtain ⟨steps, taken, inside⟩ := List.mem_flatten.mp member
    exact (yields_nextStep yields).of_mem_many behind steps taken step inside

/-- The grammar refers to itself between brackets and in predicates and arguments only, so the
reader for nested expressions is all that is assumed. -/
theorem yields_primary : Yields Expression.IsAccepted (readPrimary nested) := by
  intro text value rest read
  simp only [readPrimary, Option.orElse_eq_orElse, Option.orElse_eq_or, Option.or_eq_some_iff,
    Option.map_eq_some_iff, Prod.mk.injEq] at read
  rcases read with ⟨_, number, rfl, _⟩ | ⟨-, ⟨_, literal, rfl, _⟩ | ⟨-, call | ⟨-, group |
    ⟨-, path⟩⟩⟩⟩
  · exact Expression.everywhere_number.mpr (yields_number _ _ _ number)
  · exact Expression.everywhere_literal.mpr (yields_literal _ _ _ literal)
  · exact yields_call yields _ _ _ call
  · exact yields_between yields "(" ")" _ _ _ group
  · exact yields_path yields _ _ _ path

/-- What is read at a level is accepted if what is read inside of brackets is. -/
theorem yields_level {level : Nat} (bound : level ≤ 7) :
    Yields Expression.IsAccepted (readLevel nested level) := by
  induction bound using Nat.decreasingInduction with
  | of_succ level below ih =>
      by_cases sign : level = 5
      · subst sign
        intro text value rest read
        change readNegation nested text = _ at read
        simp only [readNegation, Option.bind_eq_bind, Option.bind_eq_some_iff, Option.pure_def,
          Option.some.injEq, Prod.mk.injEq] at read
        obtain ⟨⟨operand, _⟩, here, rfl, _⟩ := read
        have accepted : operand.IsAccepted := ih _ _ _ here
        induction (many readMinus text).1 with
        | nil => exact accepted
        | cons sign signs onward => exact Expression.everywhere_negate.mpr ⟨trivial, onward⟩
      · obtain ⟨operator, rfl⟩ := exists_operator below sign
        rw [readLevel_operator]
        exact yields_chain ih
  | self =>
      intro text value rest read
      change readTerm nested text = _ at read
      simp only [readTerm, Option.map_eq_some_iff, Prod.mk.injEq] at read
      obtain ⟨_, term, rfl, _⟩ := read
      exact yields_primary yields _ _ _ term

omit yields

/-- However deep brackets may be nested, nothing but accepted expressions is read, by induction on
the depth. -/
theorem yields_nested (depth : Nat) : Yields Expression.IsAccepted (readNested depth) := by
  induction depth with
  | zero => exact fun _ _ _ read => nomatch read
  | succ depth ih => exact yields_level ih (Nat.zero_le 7)

end Expressions

namespace Expression

variable {source : String} {expression : Expression}

/-- What the parser accepts was read as a nested expression. -/
theorem isAccepted_of_parse (parsed : parse source = .ok expression) : expression.IsAccepted := by
  unfold parse at parsed
  dsimp only at parsed
  split at parsed
  · rename_i read
    cases parsed
    exact yields_nested _ _ _ _ read
  · cases parsed
  · cases parsed

/-- Expressions that can be printed in all their parts are parsed again. -/
theorem parse_print_of_everywhere (writable : expression.Everywhere IsWritable) :
    parse expression.print = .ok expression := by
  obtain ⟨opens, closes, reads⟩ := isReadable expression (isPrintable_of_everywhere _ writable)
  exact parse_of_readsAt opens closes expression.level_le (reads _ (Nat.le_refl _)).1

/-- The parser accepts well-formed expressions only. Everywhere in an expression that has been
parsed, relative paths have a step, tests look for names without a colon, functions have a name or
two joined by a colon, and not that of a node type, literals do not contain both quotes, and numbers
are numbers and not negative. So an expression in which all numbers are natural and below `2 ^ 53`
is parsed again from its unabbreviated form. -/
theorem parse_accepts (source : String) (expression : Expression)
    (parsed : parse source = .ok expression) :
    (∀ part ∈ expression.parts, part.IsWellFormed) ∧
      ((∀ value, number value ∈ expression.parts →
        ∃ natural < 2 ^ 53, value = Binary64.ofNat natural) →
          parse expression.print = .ok expression) := by
  have accepted := isAccepted_of_parse parsed
  refine ⟨accepted, fun natural => parse_print_of_everywhere fun part member => ?_⟩
  exact ⟨accepted part member, fun value same => natural value (same ▸ member)⟩

/-- An abbreviated path with a number as predicate. -/
theorem parse_accepts_abbreviated :
    let expression : Expression :=
      .path true [.anywhere, .mk .child (.name "a") [.number (numberValue ['2'] [])]]
    parse "//a[2]" = .ok expression ∧ (∀ part ∈ expression.parts, part.IsWellFormed) ∧
      expression.print = "/descendant-or-self::node()/child::a[2]" ∧
      parse expression.print = .ok expression := by
  intro expression
  have parsed : parse "//a[2]" = .ok expression := rfl
  have two : numberValue ['2'] [] = Binary64.ofNat 2 := Binary64.ofDecimal_zero (by decide)
  have parts : expression.parts = [expression, .number (numberValue ['2'] [])] := rfl
  obtain ⟨wellFormed, printed⟩ := parse_accepts _ _ parsed
  refine ⟨parsed, wellFormed, by decide +kernel, printed fun value member => ?_⟩
  rw [parts] at member
  simp only [List.mem_cons, List.not_mem_nil, or_false] at member
  obtain same | same := member
  · change number value = .path true _ at same
    cases same
  · exact ⟨2, by decide, (number.inj same).trans two⟩

end Expression

end XPath

end XmlRecords
