import XmlRecords.Proofs.XPath.Precedence

/-! # Parsing what has been printed

An expression is read back from its unabbreviated form. The proof goes by the structure of the
expression, for any bound on the depth that is not below the length of the text: what stands in
brackets is shorter than the text around it, so that the reader for nested expressions reaches it.
-/

namespace XmlRecords

namespace XPath

section Ends

/-- The text ends with something else than white space. -/
def Closes (text : List Char) : Prop :=
  ∃ others char, text = others ++ [char] ∧ Text.isBlank char = false

theorem Closes.append {text : List Char} (closes : Closes text) (before : List Char) :
    Closes (before ++ text) := by
  obtain ⟨others, char, rfl, solid⟩ := closes
  exact ⟨before ++ others, char, (List.append_assoc _ _ _).symm, solid⟩

/-- A text without white space closes, if there is any of it. -/
theorem closes_of_forall {text : List Char} (present : text ≠ [])
    (solid : ∀ char ∈ text, Text.isBlank char = false) : Closes text :=
  ⟨text.dropLast, text.getLast present, (List.dropLast_concat_getLast present).symm,
    solid _ (List.getLast_mem present)⟩

/-- Nothing is trimmed off a text without white space at its ends. -/
theorem trim_eq {text : List Char} (opens : Opens text) (closes : Closes text) :
    Text.trim text = text := by
  have front : Text.trimStart text = text := by
    obtain ⟨char, others, rfl, solid⟩ := opens
    exact List.dropWhile_cons_of_neg (ne_true_of_eq_false solid)
  obtain ⟨others, char, rfl, solid⟩ := closes
  rw [Text.trim, front, Text.trimEnd, List.reverse_append, List.reverse_singleton,
    List.singleton_append, List.dropWhile_cons_of_neg (ne_true_of_eq_false solid)]
  simp only [List.reverse_cons, List.reverse_reverse]

end Ends

section Nesting

/-- There is no argument to be read before a closing parenthesis. -/
theorem readNested_closing (depth : Nat) (rest : List Char) :
    readNested depth (')' :: rest) = none := by
  cases depth with
  | zero => rfl
  | succ depth => exact readLevel_closing (Nat.zero_le 7) rest

/-- How an expression is read: at its level, and as a chain if an operator has that level. -/
def IsRead (nested : Reader Expression) (expression : Expression) : Prop :=
  ReadsAt nested expression.level expression.written expression ∧
    ∀ operator : Operator, expression.level = operator.level →
      ReadsChain nested operator.level expression.written expression

structure Expression.IsReadable (expression : Expression) : Prop where
  opens : Opens expression.written
  closes : Closes expression.written
  reads : ∀ depth, expression.written.length ≤ depth → IsRead (readNested depth) expression

structure Step.IsReadable (step : Step) : Prop where
  closes : Closes step.written
  reads : ∀ depth, step.written.length ≤ depth → IsReadStep (readNested depth) step

/-- An expression that is shorter than the bound on the depth is read between brackets. -/
theorem Expression.IsReadable.isNested {expression : Expression}
    (readable : expression.IsReadable) {depth : Nat}
    (shorter : expression.written.length < depth) : IsNested (readNested depth) expression := by
  obtain ⟨depth, rfl⟩ : ∃ before, depth = before + 1 := ⟨depth - 1, by omega⟩
  refine ⟨readable.opens, fun char rest closes => ?_⟩
  have reads := (readable.reads depth (Nat.le_of_lt_succ shorter)).1.looser expression.level_le
    (Nat.zero_le _) (char :: rest) (.closed closes)
  rwa [skipSpace_cons (isBlank_of_mem_closers closes)] at reads

end Nesting

section Parts

variable {α : Type}

theorem Expression.writtenNext_eq (others : List Expression) :
    writtenNext others = others.flatMap fun argument => ',' :: ' ' :: argument.written := by
  induction others with
  | nil => rfl
  | cons argument others ih => rw [writtenNext, ih, List.flatMap_cons]

/-- A part is no longer than the whole that is made of it. -/
theorem length_le_flatMap (write : α → List Char) {part : α} {parts : List α}
    (member : part ∈ parts) : (write part).length ≤ (parts.flatMap write).length := by
  obtain ⟨before, behind, rfl⟩ := List.append_of_mem member
  simp only [List.flatMap_append, List.flatMap_cons, List.length_append]
  omega

/-- A text that goes on with parts ends as the last of them does. -/
theorem closes_flatMap {write : α → List Char} {text : List Char} (closes : Closes text)
    {parts : List α} (each : ∀ part ∈ parts, Closes (write part)) :
    Closes (text ++ parts.flatMap write) := by
  induction parts generalizing text with
  | nil => rwa [List.flatMap_nil, List.append_nil]
  | cons part parts ih =>
      have here := (each part List.mem_cons_self).append text
      have whole := ih here fun other member => each other (List.mem_cons_of_mem part member)
      rwa [List.flatMap_cons, ← List.append_assoc]

/-- A predicate is shorter than what it is written into, since brackets are around it. -/
theorem length_lt_writtenPredicates {predicate : Expression} {predicates : List Expression}
    (member : predicate ∈ predicates) :
    predicate.written.length < (Expression.writtenPredicates predicates).length := by
  have shorter := length_le_flatMap (fun predicate => bracketed predicate.written) member
  rw [Expression.writtenPredicates_eq]
  simp only [bracketed, List.cons_append, List.length_append, List.length_cons] at shorter ⊢
  omega

theorem length_le_writtenAll {argument : Expression} {arguments : List Expression}
    (member : argument ∈ arguments) :
    argument.written.length ≤ (Expression.writtenAll arguments).length := by
  cases arguments with
  | nil => cases member
  | cons first others =>
      rw [Expression.writtenAll, Expression.writtenNext_eq, List.length_append]
      rcases List.mem_cons.mp member with rfl | member
      · exact Nat.le_add_right _ _
      · have shorter :=
          length_le_flatMap (fun argument => ',' :: ' ' :: argument.written) member
        simp only [List.length_cons] at shorter
        omega

theorem Step.length_le_writtenAll {step : Step} {steps : List Step} (member : step ∈ steps) :
    step.written.length ≤ (Step.writtenAll steps).length := by
  cases steps with
  | nil => cases member
  | cons first others =>
      rw [Step.writtenAll, Step.writtenNext_eq, List.length_append]
      rcases List.mem_cons.mp member with rfl | member
      · exact Nat.le_add_right _ _
      · have shorter := length_le_flatMap (fun step => '/' :: step.written) member
        simp only [List.length_cons] at shorter
        omega

/-- Tests end in a name, an asterisk or a parenthesis. -/
theorem closes_test {test : NodeTest} (printable : test.isPrintable) : Closes test.written := by
  cases test with
  | any => exact ⟨[], '*', rfl, by decide⟩
  | text => exact ⟨"text(".toList, ')', by decide, by decide⟩
  | comment => exact ⟨"comment(".toList, ')', by decide, by decide⟩
  | node => exact ⟨"node(".toList, ')', by decide, by decide⟩
  | name word =>
      have named : isName word.toList := printable
      obtain ⟨first, others, written, _⟩ := startsName_of_isName named
      change Closes word.toList
      refine closes_of_forall ?_ fun char member =>
        isBlank_of_isNameChar (isNameChar_of_isName named char member)
      rw [written]
      exact List.cons_ne_nil first others

end Parts

section Enclosed

/-- Brackets around a text open it. -/
theorem Opens.enclosed {text : List Char} (opens : Opens text) (needed : Bool) :
    Opens (enclosed needed text) := by
  cases needed with
  | true => exact ⟨'(', _, rfl, by decide⟩
  | false => exact opens

theorem Closes.enclosed {text : List Char} (closes : Closes text) (needed : Bool) :
    Closes (enclosed needed text) := by
  cases needed with
  | true => exact ⟨_, ')', rfl, by decide⟩
  | false => exact closes

/-- An operand is read at the level of its place, if it has parentheses where it binds looser. -/
theorem Expression.IsReadable.readsAt_enclosed {expression : Expression}
    (readable : expression.IsReadable) {needed : Bool} {level depth : Nat} (bound : level ≤ 7)
    (fits : needed = false → level ≤ expression.level)
    (enough : (enclosed needed expression.written).length ≤ depth) :
    ReadsAt (readNested depth) level (enclosed needed expression.written) expression := by
  cases needed with
  | true =>
      have inside : IsNested (readNested depth) expression := by
        refine readable.isNested ?_
        simp only [enclosed, if_true, List.length_append, List.length_cons] at enough
        omega
      have opens := readable.opens.enclosed true
      exact ((isPrimary_group inside).readsAt opens).looser (Nat.le_refl 7) bound
  | false => exact (readable.reads depth enough).1.looser expression.level_le (fits rfl)

/-- To the left of an operator it is read as a chain of the operators of that level. -/
theorem Expression.IsReadable.readsChain_enclosed {expression : Expression}
    (readable : expression.IsReadable) {operator : Operator} {depth : Nat}
    (enough : (enclosed (expression.level < operator.level) expression.written).length ≤ depth) :
    ReadsChain (readNested depth) operator.level
      (enclosed (expression.level < operator.level) expression.written) expression := by
  by_cases same : expression.level = operator.level
  · have bare : decide (expression.level < operator.level) = false :=
      decide_eq_false (by omega)
    rw [bare] at enough ⊢
    exact (readable.reads depth enough).2 operator same
  · refine (readable.readsAt_enclosed operator.level_lt.1 (fun bare => ?_) enough).readsChain
    have above := of_decide_eq_false bare
    omega

end Enclosed

section Constructors

/-- An expression without operators is read at the tightest level. -/
theorem isRead_of_isPrimary {nested : Reader Expression} {expression : Expression}
    (tight : expression.level = 7) (opens : Opens expression.written)
    (primary : IsPrimary nested expression.written expression) : IsRead nested expression := by
  refine ⟨tight ▸ primary.readsAt opens, fun operator same => ?_⟩
  exact absurd (same.symm.trans tight) operator.level_lt.1.ne

/-- A literal is put into the quotes that it does not contain. -/
theorem isReadable_literal {content : String}
    (free : ¬('\'' ∈ content.toList ∧ '"' ∈ content.toList)) :
    (Expression.literal content).IsReadable := by
  have solid : Text.isBlank (quoteOf content.toList) = false := by
    unfold quoteOf
    split <;> decide
  have opens : Opens (Expression.literal content).written := ⟨_, _, rfl, solid⟩
  exact {
    opens
    closes := ⟨_, _, rfl, solid⟩
    reads := fun _ _ => isRead_of_isPrimary rfl opens (isPrimary_literal free) }

/-- A natural number is written with its digits. -/
theorem isReadable_number {value : Float} {number : Nat}
    (natural : Binary64.toNat? value = some number) (bound : number < 2 ^ 53) :
    (Expression.number value).IsReadable := by
  have written : (Expression.number value).written = Numeral.digits number := by
    rw [Expression.written, natural, Option.getD_some]
  have present : (Expression.number value).written ≠ [] := written ▸ Nat.toDigits_ne_nil
  have solid : ∀ char ∈ (Expression.number value).written, Text.isBlank char = false := by
    rw [written]
    intro char member
    have digit : char.isDigit := Nat.isDigit_of_mem_toDigits (by decide) (by decide) member
    exact isBlank_of_isNameChar (isNameChar_of_isDigit digit)
  have opens : Opens (Expression.number value).written :=
    ⟨_, _, (List.cons_head_tail present).symm, solid _ (List.head_mem present)⟩
  exact {
    opens
    closes := closes_of_forall present solid
    reads := fun _ _ => isRead_of_isPrimary rfl opens (written ▸ isPrimary_number natural bound) }

/-- The name of the function is read up to the parenthesis, and the arguments up to the commas
between them. -/
theorem isReadable_call {name : String} {arguments : List Expression} (named : isFunctionName name)
    (readable : ∀ argument ∈ arguments, argument.IsReadable) :
    (Expression.call name arguments).IsReadable := by
  have opens : Opens (Expression.call name arguments).written := by
    rw [Expression.written, List.append_assoc]
    exact ((startsName_of_isFunctionName named).append _).opens
  refine ⟨opens, ⟨_, ')', rfl, by decide⟩, fun depth bound => ?_⟩
  refine isRead_of_isPrimary rfl opens (isPrimary_call named (readNested_closing depth) ?_)
  intro argument member
  refine (readable argument member).isNested ?_
  have shorter := length_le_writtenAll member
  simp only [Expression.written, List.length_append, List.length_cons] at bound
  omega

/-- A path is read step by step, and no step can be read behind the last one. -/
theorem isReadable_path {absolute : Bool} {steps : List Step}
    (present : absolute = true ∨ steps ≠ []) (readable : ∀ step ∈ steps, step.IsReadable) :
    (Expression.path absolute steps).IsReadable := by
  have opens : Opens (Expression.path absolute steps).written := by
    cases absolute with
    | true => exact ⟨'/', _, rfl, by decide⟩
    | false =>
        cases steps with
        | nil => exact absurd rfl (present.resolve_left Bool.false_ne_true)
        | cons step steps => exact ((startsName_step step).append (Step.writtenNext steps)).opens
  have closes : Closes (Expression.path absolute steps).written := by
    have each : ∀ step ∈ steps, Closes step.written := fun step member =>
      (readable step member).closes
    cases steps with
    | nil =>
        obtain rfl := present.resolve_right fun absent => absent rfl
        exact ⟨[], '/', rfl, by decide⟩
    | cons step steps =>
        refine Closes.append ?_ _
        rw [Step.writtenAll, Step.writtenNext_eq]
        refine closes_flatMap (each step List.mem_cons_self) fun other member => ?_
        exact (each other (List.mem_cons_of_mem step member)).append ['/']
  refine ⟨opens, closes, fun depth bound => ?_⟩
  refine isRead_of_isPrimary rfl opens (isPrimary_path present fun step member => ?_)
  refine (readable step member).reads depth ?_
  have shorter := Step.length_le_writtenAll member
  simp only [Expression.written, List.length_append] at bound
  omega

/-- A step is read with its axis, its test and as many predicates as it has. -/
theorem isReadable_step {axis : Axis} {test : NodeTest} {predicates : List Expression}
    (printable : test.isPrintable) (readable : ∀ predicate ∈ predicates, predicate.IsReadable) :
    (Step.mk axis test predicates).IsReadable := by
  have closes : Closes (Step.mk axis test predicates).written := by
    rw [Step.written, Expression.writtenPredicates_eq]
    exact closes_flatMap ((closes_test printable).append _) fun _ _ => ⟨_, ']', rfl, by decide⟩
  refine ⟨closes, fun depth bound => isReadStep_mk printable fun predicate member => ?_⟩
  refine (readable predicate member).isNested ?_
  have shorter := length_lt_writtenPredicates member
  simp only [Step.written, List.length_append] at bound
  omega

/-- The operand of a sign is put into parentheses if it binds looser than the sign. -/
theorem isReadable_negate {operand : Expression} (readable : operand.IsReadable) :
    (Expression.negate operand).IsReadable := by
  have closes : Closes (Expression.negate operand).written :=
    (readable.closes.enclosed _).append ['-']
  refine ⟨⟨'-', _, rfl, by decide⟩, closes, fun depth bound => ?_⟩
  have inner : ReadsAt (readNested depth) 5 (enclosed (operand.level < 5) operand.written)
      operand := by
    refine readable.readsAt_enclosed (by decide) (fun bare => ?_) ?_
    · have above := of_decide_eq_false bare
      omega
    · simp only [Expression.written, List.length_cons] at bound
      omega
  refine ⟨inner.negate (readable.opens.enclosed _), fun operator same => ?_⟩
  exact absurd same.symm operator.level_lt.2

/-- The left operand may be of the same level, as chains are grouped to the left, and the right one
is put into parentheses then. -/
theorem isReadable_binary {operator : Operator} {left right : Expression}
    (leftReadable : left.IsReadable) (rightReadable : right.IsReadable) :
    (Expression.binary operator left right).IsReadable := by
  have opens : Opens (Expression.binary operator left right).written := by
    rw [Expression.written, List.append_assoc]
    exact (leftReadable.opens.enclosed _).append _
  have closes : Closes (Expression.binary operator left right).written :=
    ((rightReadable.closes.enclosed _).append [' ']).append _
  refine ⟨opens, closes, fun depth bound => ?_⟩
  simp only [Expression.written, List.length_append, List.length_cons] at bound
  have chain : ReadsChain (readNested depth) operator.level
      (enclosed (left.level < operator.level) left.written) left :=
    leftReadable.readsChain_enclosed (by omega)
  have operand : ReadsAt (readNested depth) (operator.level + 1)
      (enclosed (right.level ≤ operator.level) right.written) right := by
    refine rightReadable.readsAt_enclosed operator.level_lt.1 (fun bare => ?_) (by omega)
    have above := of_decide_eq_false bare
    omega
  have whole := chain.binary operand (rightReadable.opens.enclosed _)
  refine ⟨whole.readsAt, fun other same => ?_⟩
  change operator.level = other.level at same
  exact same ▸ whole

end Constructors

mutual

theorem Expression.isReadable :
    ∀ expression : Expression, expression.isPrintable → expression.IsReadable
  | .literal content, printable => by
      refine isReadable_literal fun both => ?_
      simp [Expression.isPrintable, both] at printable
  | .number value, printable => by
      obtain ⟨number, natural, bound⟩ := (Option.any_eq_true _ _).mp printable
      exact isReadable_number natural (of_decide_eq_true bound)
  | .path absolute steps, printable => by
      obtain ⟨present, printable⟩ := Bool.and_eq_true_iff.mp printable
      refine isReadable_path ?_ (Step.areAllReadable steps printable)
      simpa using present
  | .call name arguments, printable => by
      obtain ⟨named, printable⟩ := Bool.and_eq_true_iff.mp printable
      exact isReadable_call named (Expression.areAllReadable arguments printable)
  | .binary operator left right, printable => by
      obtain ⟨leftPrintable, rightPrintable⟩ := Bool.and_eq_true_iff.mp printable
      exact isReadable_binary (Expression.isReadable left leftPrintable)
        (Expression.isReadable right rightPrintable)
  | .negate operand, printable => isReadable_negate (Expression.isReadable operand printable)

/-- A step is readable if its predicates are. -/
theorem Step.isReadable : ∀ step : Step, step.isPrintable → step.IsReadable
  | .mk axis test predicates, printable => by
      obtain ⟨tested, printable⟩ := Bool.and_eq_true_iff.mp printable
      exact isReadable_step tested (Expression.areAllReadable predicates printable)

theorem Expression.areAllReadable : ∀ expressions : List Expression,
    Expression.areAllPrintable expressions → ∀ expression ∈ expressions, expression.IsReadable
  | [], _ => fun _ member => absurd member List.not_mem_nil
  | first :: others, printable => by
      obtain ⟨here, onward⟩ := Bool.and_eq_true_iff.mp printable
      rintro expression (_ | ⟨_, member⟩)
      · exact Expression.isReadable first here
      · exact Expression.areAllReadable others onward expression member

theorem Step.areAllReadable : ∀ steps : List Step,
    Step.areAllPrintable steps → ∀ step ∈ steps, step.IsReadable
  | [], _ => fun _ member => absurd member List.not_mem_nil
  | first :: others, printable => by
      obtain ⟨here, onward⟩ := Bool.and_eq_true_iff.mp printable
      rintro step (_ | ⟨_, member⟩)
      · exact Step.isReadable first here
      · exact Step.areAllReadable others onward step member

end

namespace Expression

/-- A text without white space at its ends is parsed as what it is read as at any level. -/
theorem parse_of_readsAt {text : List Char} {level : Nat} {expression : Expression}
    (opens : Opens text) (closes : Closes text) (bound : level ≤ 7)
    (reads : ReadsAt (readNested text.length) level text expression) :
    parse (String.ofList text) = .ok expression := by
  have read := reads.looser bound (Nat.zero_le _) [] .nothing
  rw [List.append_nil] at read
  have whole : readExpression text = some (expression, []) := read
  unfold parse
  rw [String.toList_ofList, trim_eq opens closes]
  simp only [whole]

/-- An expression is parsed back from the form in which it is printed. -/
theorem parse_print (expression : Expression) (printable : expression.isPrintable = true) :
    parse expression.print = .ok expression := by
  obtain ⟨opens, closes, reads⟩ := isReadable expression printable
  have read := (reads _ (Nat.le_refl _)).1.looser expression.level_le (Nat.zero_le _) [] .nothing
  rw [List.append_nil] at read
  have whole : readExpression expression.written = some (expression, []) := read
  unfold parse print
  rw [String.toList_ofList, trim_eq opens closes]
  simp only [whole]

/-- An absolute path with a predicate, from which a sum is taken. The parentheses around the sum and
around the conjunction stay, those around the union are not printed. -/
theorem parse_print_difference :
    let path (name : String) : Expression := .path false [.mk .child (.name name) []]
    let expression : Expression :=
      .binary .minus (.path true [.mk .descendant (.name "or") [.number (Binary64.ofNat 2)]])
        (.binary .plus (.negate (.binary .union (path "div") (path "text")))
          (.call "p:last" [.literal "it's",
            .binary .union (path "self") (.binary .and (path "and") (path "child"))]))
    expression.isPrintable = true ∧
      expression.print = "/descendant::or[2] - (-child::div | child::text + " ++
        "p:last(\"it's\", child::self | (child::and and child::child)))" ∧
      parse expression.print = .ok expression :=
  ⟨by decide +kernel, by decide +kernel, parse_print _ (by decide +kernel)⟩

end Expression

end XPath

end XmlRecords
