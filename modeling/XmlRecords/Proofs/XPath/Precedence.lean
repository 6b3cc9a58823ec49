import XmlRecords.Proofs.XPath.Primary

/-! # Reading operators by precedence

The readers of the grammar by level, from the loosest operator to what has none. An operand that is
read at a level is read at every looser one, because none of the operators of that level comes
behind it; and operands that group to the left are read as one chain.
-/

namespace XmlRecords

namespace XPath

/-- The reader of the operators of a level. -/
def readOperator : (level : Nat) → Reader Operator
  | 0 => readWordOperator .or
  | 1 => readWordOperator .and
  | 2 => readOneOf Operator.symbol [.compare .notEqual, .compare .equal]
  | 3 =>
      readOneOf Operator.symbol
        [.compare .lessOrEqual, .compare .greaterOrEqual, .compare .less, .compare .greater]
  | 4 => readOneOf Operator.symbol [.plus, .minus]
  | _ => readOneOf Operator.symbol [.union]

section Levels

variable (nested : Reader Expression)

def readLevel : (level : Nat) → Reader Expression
  | 0 => readDisjunction nested
  | 1 => readConjunction nested
  | 2 => readEquality nested
  | 3 => readOrder nested
  | 4 => readSum nested
  | 5 => readNegation nested
  | 6 => readUnion nested
  | _ => readTerm nested

/-- Operators of a level stand between operands of the next one. -/
theorem readLevel_operator (operator : Operator) :
    readLevel nested operator.level =
      readChain (readOperator operator.level) (readLevel nested (operator.level + 1)) := by
  cases operator with
  | compare comparison => cases comparison <;> rfl
  | _ => rfl

end Levels

section Operators

theorem skipSpace_symbol (operator : Operator) (rest : List Char) :
    skipSpace (' ' :: operator.symbol.toList ++ rest) = operator.symbol.toList ++ rest := by
  cases operator with
  | compare comparison => cases comparison <;> rfl
  | _ => rfl

theorem readOperator_symbol (operator : Operator) (rest : List Char) :
    readOperator operator.level (operator.symbol.toList ++ ' ' :: rest) =
      some (operator, ' ' :: rest) := by
  cases operator with
  | compare comparison => cases comparison <;> rfl
  | _ => rfl

/-- Behind an operand of a level comes none of its operators. -/
theorem readOperator_eq_none {operator : Operator} {rest : List Char}
    (ends : Ends operator.level rest) : readOperator operator.level (skipSpace rest) = none := by
  cases ends with
  | nothing =>
      cases operator with
      | compare comparison => cases comparison <;> rfl
      | _ => rfl
  | @closed char rest closes =>
      obtain rfl | rfl | rfl : char = ')' ∨ char = ']' ∨ char = ',' := by
        simpa only [closers, List.mem_cons, List.not_mem_nil, or_false] using closes
      all_goals
        cases operator with
        | compare comparison => cases comparison <;> rfl
        | _ => rfl
  | @operator other rest looser =>
      rcases operator with _ | _ | (_ | _ | _ | _ | _ | _) | _ | _ | _ <;>
        rcases other with _ | _ | (_ | _ | _ | _ | _ | _) | _ | _ | _ <;>
          first
          | exact absurd looser (by decide)
          | rfl

end Operators

section Operands

variable {nested : Reader Expression} {text : List Char} {expression : Expression}

/-- The text is read as an expression of a level, with the white space behind it. -/
def ReadsAt (nested : Reader Expression) (level : Nat) (text : List Char)
    (expression : Expression) : Prop :=
  ∀ rest, Ends level rest →
    readLevel nested level (text ++ rest) = some (expression, skipSpace rest)

abbrev readNextOperand (nested : Reader Expression) (level : Nat) :
    Reader (Operator × Expression) :=
  readOperand (readOperator level) (readLevel nested (level + 1))

/-- The text is read as the beginning of a chain of operands, which makes up the expression so far.
Behind it the chain can go on. -/
def ReadsChain (nested : Reader Expression) (level : Nat) (text : List Char)
    (expression : Expression) : Prop :=
  ∀ rest, Ends (level + 1) rest → ∃ first behind operands,
    readLevel nested (level + 1) (text ++ rest) = some (first, behind) ∧
      operands.foldl (fun left (symbol, right) => .binary symbol left right) first = expression ∧
      ∀ others last, Repeats (readNextOperand nested level) (skipSpace rest) others last →
        Repeats (readNextOperand nested level) behind (operands ++ others) last

theorem ReadsAt.readsChain {level : Nat} (reads : ReadsAt nested (level + 1) text expression) :
    ReadsChain nested level text expression := by
  intro rest ends
  exact ⟨expression, skipSpace rest, [], reads rest ends, rfl, fun _ _ onward => onward⟩

theorem ReadsChain.readsAt {operator : Operator}
    (chain : ReadsChain nested operator.level text expression) :
    ReadsAt nested operator.level text expression := by
  intro rest ends
  obtain ⟨first, behind, operands, read, grouped, onward⟩ := chain rest (ends.mono (Nat.le_succ _))
  have stop : readNextOperand nested operator.level (skipSpace rest) = none := by
    rw [readNextOperand, readOperand, skipSpace_skipSpace, readOperator_eq_none ends]
    rfl
  have whole := (onward [] (skipSpace rest) (.stop stop)).many_eq
  rw [List.append_nil] at whole
  rw [readLevel_operator, readChain, read]
  simp only [Option.bind_eq_bind, Option.bind_some, whole, grouped]
  rfl

/-- A chain goes on with an operator of its level and an operand of the next one. -/
theorem ReadsChain.binary {operator : Operator} {right : Expression} {rightText : List Char}
    (chain : ReadsChain nested operator.level text expression)
    (reads : ReadsAt nested (operator.level + 1) rightText right) (opens : Opens rightText) :
    ReadsChain nested operator.level (text ++ ' ' :: operator.symbol.toList ++ ' ' :: rightText)
      (.binary operator expression right) := by
  intro rest ends
  have between : text ++ ' ' :: operator.symbol.toList ++ ' ' :: rightText ++ rest =
      text ++ (' ' :: operator.symbol.toList ++ ' ' :: (rightText ++ rest)) := by
    simp only [List.append_assoc, List.cons_append]
  obtain ⟨first, behind, operands, read, grouped, onward⟩ :=
    chain (' ' :: operator.symbol.toList ++ ' ' :: (rightText ++ rest))
      (.operator (Nat.lt_succ_self _))
  refine ⟨first, behind, operands ++ [(operator, right)], between ▸ read, ?_, ?_⟩
  · rw [List.foldl_append, grouped]
    rfl
  · intro others last repeats
    rw [List.append_assoc]
    refine onward _ _ (.next ?_ ?_ repeats)
    · have behindSpace : skipSpace (' ' :: (rightText ++ rest)) = rightText ++ rest :=
        (opens.append rest).skipSpace_eq
      rw [readNextOperand, readOperand, skipSpace_skipSpace, skipSpace_symbol, readOperator_symbol]
      simp only [Option.bind_eq_bind, Option.bind_some, behindSpace, reads rest ends]
      rfl
    · have shorter := length_skipSpace_le rest
      rw [skipSpace_symbol]
      simp only [List.length_append, List.length_cons]
      omega

/-- What has no operators begins neither with a minus sign nor with a closing parenthesis. -/
theorem readPrimary_eq_none {char : Char} (mark : char ∈ ['-', ')']) (text : List Char) :
    readPrimary nested (char :: text) = none := by
  have unlike : ∀ mark ∈ ['-', ')'], Text.isBlank mark = false ∧
      mark ∈ marks ∧ mark.isDigit = false ∧
        mark ∉ ['.', '\'', '"', '(', '/', '@', '*'] := forall_mem_of_all (by decide)
  obtain ⟨solid, other, noDigit, unmarked⟩ := unlike char mark
  have unnamed := isNameStart_of_mem_marks other
  simp only [List.mem_cons, List.not_mem_nil, or_false, not_or] at unmarked
  obtain ⟨noPoint, noSingle, noDouble, noOpening, noSlash, noAt, noStar⟩ := unmarked
  have noNumber : readNumber (char :: text) = none :=
    readNumber_eq_none (forall_mem_head?_cons ⟨noDigit, noPoint⟩)
  have noQuote : char ∉ ['\'', '"'] := by
    simp only [List.mem_cons, noSingle, noDouble, List.not_mem_nil, or_false, not_false_eq_true]
  have noLiteral : readLiteral (char :: text) = none :=
    readLiteral_eq_none (forall_mem_head?_cons noQuote)
  have noCall : readCall nested (char :: text) = none :=
    readCall_eq_none nested (forall_mem_head?_cons unnamed)
  have noGroup : readGroup nested (char :: text) = none :=
    readGroup_eq_none ⟨char, text, rfl, solid⟩ (forall_mem_head?_cons noOpening)
  have noShort : char ∉ ['.', '@', '*'] := by
    simp only [List.mem_cons, noPoint, noAt, noStar, List.not_mem_nil, or_false, not_false_eq_true]
  have noStep : readStep nested (char :: text) = none :=
    readStep_eq_none nested (forall_mem_head?_cons ⟨unnamed, noShort⟩)
  have noTwo : readSymbol "//" (char :: text) = none :=
    readSymbol_eq_none rfl (forall_mem_head?_cons noSlash)
  have noOne : readSymbol "/" (char :: text) = none :=
    readSymbol_eq_none rfl (forall_mem_head?_cons noSlash)
  have noPath : readPath nested (char :: text) = none := by
    rw [readPath, readFirstStep]
    simp only [noTwo, noOne, noStep]
    rfl
  rw [readPrimary, noNumber, noLiteral, noCall, noGroup, noPath]
  rfl

theorem readChain_eq_none {operator : Reader Operator} {operand : Reader Expression}
    (none : operand text = none) : readChain operator operand text = Option.none := by
  rw [readChain, none]
  rfl

/-- A minus sign in front leaves nothing that a union could begin with. -/
theorem readUnion_eq_none_of_readMinus {taken : Unit × List Char}
    (sign : readMinus text = some taken) : readUnion nested text = none := by
  obtain ⟨_, spaced, -⟩ := Option.map_eq_some_iff.mp sign
  obtain ⟨behind, read, -⟩ := Option.map_eq_some_iff.mp spaced
  refine readChain_eq_none ?_
  rw [readTerm, after?_eq_some_iff.mp read]
  exact congrArg (Option.map _) (readPrimary_eq_none (by decide) behind)

theorem ReadsAt.negation (reads : ReadsAt nested 6 text expression) :
    ReadsAt nested 5 text expression := by
  intro rest ends
  have union : readUnion nested (text ++ rest) = some (expression, skipSpace rest) :=
    reads rest (ends.mono (Nat.le_succ 5))
  have noMinus : readMinus (text ++ rest) = none := by
    cases sign : readMinus (text ++ rest) with
    | none => rfl
    | some taken =>
        rw [readUnion_eq_none_of_readMinus sign] at union
        cases union
  have noSigns : many readMinus (text ++ rest) = ([], text ++ rest) :=
    (Repeats.stop noMinus).many_eq
  change readNegation nested (text ++ rest) = _
  rw [readNegation, noSigns]
  simp only [union, Option.bind_eq_bind, Option.bind_some]
  rfl

theorem Operator.level_lt (operator : Operator) : operator.level < 7 ∧ operator.level ≠ 5 := by
  cases operator with
  | compare comparison => cases comparison <;> decide
  | _ => decide

theorem Expression.level_le (expression : Expression) : expression.level ≤ 7 := by
  cases expression with
  | binary operator left right => exact operator.level_lt.1.le
  | negate operand => exact (by decide : 5 ≤ 7)
  | _ => exact Nat.le_refl 7

/-- Every level but that of the minus sign has an operator. -/
theorem exists_operator {level : Nat} (bound : level < 7) (sign : level ≠ 5) :
    ∃ operator : Operator, operator.level = level := by
  rcases level with _ | _ | _ | _ | _ | _ | _ | level
  · exact ⟨.or, rfl⟩
  · exact ⟨.and, rfl⟩
  · exact ⟨.compare .equal, rfl⟩
  · exact ⟨.compare .less, rfl⟩
  · exact ⟨.plus, rfl⟩
  · exact absurd rfl sign
  · exact ⟨.union, rfl⟩
  · omega

/-- No expression of any level begins with a closing parenthesis. -/
theorem readLevel_closing {level : Nat} (bound : level ≤ 7) (rest : List Char) :
    readLevel nested level (')' :: rest) = none := by
  induction bound using Nat.decreasingInduction with
  | of_succ level below ih =>
      by_cases sign : level = 5
      · subst sign
        have noSigns : many readMinus (')' :: rest) = ([], ')' :: rest) :=
          (Repeats.stop rfl).many_eq
        change readNegation nested (')' :: rest) = none
        rw [readNegation, noSigns]
        exact congrArg (Option.bind · _) ih
      · obtain ⟨operator, rfl⟩ := exists_operator below sign
        rw [readLevel_operator, readChain_eq_none ih]
  | self =>
      change readTerm nested (')' :: rest) = none
      rw [readTerm, skipSpace_cons (by decide), readPrimary_eq_none (by decide)]
      rfl

theorem ReadsAt.before {level : Nat} (bound : level < 7)
    (reads : ReadsAt nested (level + 1) text expression) :
    ReadsAt nested level text expression := by
  by_cases sign : level = 5
  · subst sign
    exact reads.negation
  · obtain ⟨operator, rfl⟩ := exists_operator bound sign
    exact reads.readsChain.readsAt

theorem ReadsAt.looser {level lower : Nat} (bound : level ≤ 7) (below : lower ≤ level)
    (reads : ReadsAt nested level text expression) : ReadsAt nested lower text expression := by
  induction below using Nat.decreasingInduction with
  | of_succ lower below ih => exact ih.before (by omega)
  | self => exact reads

theorem ReadsAt.negate (reads : ReadsAt nested 5 text expression) (opens : Opens text) :
    ReadsAt nested 5 ('-' :: text) (.negate expression) := by
  intro rest ends
  have inner : readNegation nested (text ++ rest) = some (expression, skipSpace rest) :=
    reads rest ends
  have minus : readMinus ('-' :: (text ++ rest)) = some ((), text ++ rest) := by
    rw [readMinus, readSpaced_cons rfl (by decide), (opens.append rest).skipSpace_eq]
    rfl
  change readNegation nested ('-' :: (text ++ rest)) = _
  rw [readNegation] at inner ⊢
  rw [many_cons minus]
  generalize many readMinus (text ++ rest) = taken at inner ⊢
  obtain ⟨signs, behind⟩ := taken
  obtain ⟨⟨operand, left⟩, union, signed⟩ := Option.bind_eq_some_iff.mp inner
  cases signed
  dsimp only
  rw [union]
  rfl

/-- What has no operators is read at the tightest level. -/
theorem IsPrimary.readsAt (primary : IsPrimary nested text expression) (opens : Opens text) :
    ReadsAt nested 7 text expression := by
  intro rest ends
  obtain ⟨left, read, skips⟩ := primary 7 rest ends
  change readTerm nested (text ++ rest) = _
  rw [readTerm, (opens.append rest).skipSpace_eq, read, ← skips.skipSpace_eq]
  rfl

end Operands

end XPath

end XmlRecords
