import XmlRecords.Proofs.XPath.Paths

/-! # Reading expressions without operators

What is read of a literal, a number, a call, a path or an expression in parentheses when it is
followed by something that cannot belong to it. The expressions nested in it are taken as they are
read inside brackets.
-/

namespace XmlRecords

namespace XPath

section Arguments

variable {nested : Reader Expression}

theorem exists_cons_of_writtenNext (others : List Expression) (rest : List Char) :
    ∃ char tail, Expression.writtenNext others ++ ')' :: rest = char :: tail ∧ char ∈ closers := by
  cases others with
  | nil => exact ⟨')', rest, rfl, by decide⟩
  | cons argument others => exact ⟨',', _, rfl, by decide⟩

/-- An argument is read up to where the next one or the end is. -/
theorem IsNested.reads_argument {argument : Expression} (inside : IsNested nested argument)
    (others : List Expression) (rest : List Char) :
    nested (argument.written ++ (Expression.writtenNext others ++ ')' :: rest)) =
      some (argument, Expression.writtenNext others ++ ')' :: rest) := by
  obtain ⟨char, tail, behind, closes⟩ := exists_cons_of_writtenNext others rest
  rw [behind]
  exact inside.reads char tail closes

/-- Arguments behind the first one are read to the closing parenthesis. -/
theorem repeats_arguments {others : List Expression} (rest : List Char)
    (inside : ∀ argument ∈ others, IsNested nested argument) :
    Repeats (readNextArgument nested) (Expression.writtenNext others ++ ')' :: rest) others
      (')' :: rest) := by
  induction others with
  | nil => exact .stop rfl
  | cons argument others ih =>
      have here := inside argument List.mem_cons_self
      refine .next ?_ ?_ (ih fun other member => inside other (List.mem_cons_of_mem _ member))
      · have comma : readSpaced "," (Expression.writtenNext (argument :: others) ++ ')' :: rest) =
            some (argument.written ++ (Expression.writtenNext others ++ ')' :: rest)) := by
          rw [← (here.opens.append (Expression.writtenNext others ++ ')' :: rest)).skipSpace_eq,
            ← List.append_assoc]
          rfl
        rw [readNextArgument, comma]
        exact here.reads_argument others rest
      · simp only [Expression.writtenNext, List.length_append, List.length_cons]
        omega

theorem readArguments_written {arguments : List Expression} {rest : List Char}
    (empty : nested (')' :: rest) = none)
    (inside : ∀ argument ∈ arguments, IsNested nested argument) :
    readArguments nested (Expression.writtenAll arguments ++ ')' :: rest) =
      (arguments, ')' :: rest) := by
  cases arguments with
  | nil =>
      unfold readArguments
      rw [Expression.writtenAll, List.nil_append, empty]
  | cons first others =>
      have here := (inside first List.mem_cons_self).reads_argument others rest
      have onward := repeats_arguments rest fun other member =>
        inside other (List.mem_cons_of_mem first member)
      unfold readArguments
      rw [Expression.writtenAll, List.append_assoc, here]
      dsimp only
      rw [onward.many_eq]

end Arguments

section Alternatives

variable {nested : Reader Expression}

/-- The text is read as an expression without operators, up to where it ends or to what comes behind
the white space there. -/
def IsPrimary (nested : Reader Expression) (text : List Char) (expression : Expression) : Prop :=
  ∀ level rest, Ends level rest →
    ∃ left, readPrimary nested (text ++ rest) = some (expression, left) ∧ Skips rest left

theorem isPrimary_number {value : Float} {number : Nat}
    (natural : Binary64.toNat? value = some number) (bound : number < 2 ^ 53) :
    IsPrimary nested (Numeral.digits number) (.number value) := by
  intro level rest ends
  have outside : ∀ char ∈ ' ' :: closers, char.isDigit = false ∧ char ≠ '.' :=
    forall_mem_of_all (by decide)
  have read := readNumber_digits natural bound fun char member =>
    outside char (ends.mem_of_head? char member)
  refine ⟨rest, ?_, .inl rfl⟩
  rw [readPrimary, read]
  rfl

theorem isPrimary_literal {content : String}
    (free : ¬('\'' ∈ content.toList ∧ '"' ∈ content.toList)) :
    IsPrimary nested (quoted content.toList) (.literal content) := by
  intro level rest ends
  have read : readLiteral (quoted content.toList ++ rest) =
      some (String.ofList content.toList, rest) := readLiteral_quoted free
  have noNumber : readNumber (quoted content.toList ++ rest) = none := by
    have mark : quoteOf content.toList ∈ ['\'', '"'] := by
      unfold quoteOf
      split <;> decide
    have other : ∀ char ∈ ['\'', '"'], char.isDigit = false ∧ char ≠ '.' :=
      forall_mem_of_all (by decide)
    exact readNumber_eq_none (forall_mem_head?_cons (other _ mark))
  refine ⟨rest, ?_, .inl rfl⟩
  rw [readPrimary, noNumber, read, String.ofList_toList]
  rfl

/-- Neither a number nor a literal begins with the character of a name or one of these. -/
theorem readNumber_readLiteral_eq_none {text : List Char}
    (begins : ∀ char ∈ text.head?, isNameStart char = true ∨ char ∈ ['/', '(', '@', '*']) :
    readNumber text = none ∧ readLiteral text = none := by
  constructor
  · refine readNumber_eq_none fun char member => ?_
    rcases begins char member with start | mark
    · refine ⟨?_, ne_of_isNameStart start (by decide)⟩
      cases digit : char.isDigit with
      | false => rfl
      | true => exact absurd ((isNameStart_of_isDigit digit).symm.trans start) Bool.false_ne_true
    · have unlike : ∀ mark ∈ ['/', '(', '@', '*'], mark.isDigit = false ∧ mark ≠ '.' :=
        forall_mem_of_all (by decide)
      exact unlike char mark
  · refine readLiteral_eq_none fun char member quote => ?_
    have unnamed : ∀ mark ∈ ['\'', '"'],
        mark ∈ marks ∧ mark ∉ ['/', '(', '@', '*'] := forall_mem_of_all (by decide)
    rcases begins char member with start | mark
    · exact ne_of_isNameStart start (unnamed char quote).1 rfl
    · exact (unnamed char quote).2 mark

theorem readGroup_eq_none {text : List Char} (opens : Opens text)
    (other : ∀ char ∈ text.head?, char ≠ '(') : readGroup nested text = none := by
  have none : readSpaced "(" text = none := by
    refine readSpaced_eq_none rfl ?_
    rwa [opens.skipSpace_eq]
  rw [readGroup, none]
  rfl

theorem isPrimary_group {expression : Expression} (inside : IsNested nested expression) :
    IsPrimary nested ('(' :: expression.written ++ [')']) expression := by
  intro level rest ends
  have text : '(' :: expression.written ++ [')'] ++ rest =
      '(' :: (expression.written ++ ')' :: rest) := by
    simp only [List.cons_append, List.append_assoc, List.nil_append]
  have alone : readNumber ('(' :: (expression.written ++ ')' :: rest)) = none ∧
      readLiteral ('(' :: (expression.written ++ ')' :: rest)) = none :=
    readNumber_readLiteral_eq_none (forall_mem_head?_cons (.inr (by decide)))
  have noCall : readCall nested ('(' :: (expression.written ++ ')' :: rest)) = none :=
    readCall_eq_none nested (forall_mem_head?_cons (isNameStart_of_mem_marks (by decide)))
  have group : readGroup nested ('(' :: (expression.written ++ ')' :: rest)) =
      some (expression, skipSpace rest) :=
    inside.reads_between rfl rfl (by decide) (by decide) rest
  refine ⟨skipSpace rest, ?_, .inr rfl⟩
  rw [text, readPrimary, alone.1, alone.2, noCall, group]
  rfl

/-- No space is put before the arguments of a call. -/
theorem skipSpace_arguments {arguments : List Expression}
    (inside : ∀ argument ∈ arguments, IsNested nested argument) (rest : List Char) :
    skipSpace (Expression.writtenAll arguments ++ ')' :: rest) =
      Expression.writtenAll arguments ++ ')' :: rest := by
  cases arguments with
  | nil => exact skipSpace_cons (by decide)
  | cons first others =>
      have opens := (inside first List.mem_cons_self).opens
      rw [Expression.writtenAll, List.append_assoc, (opens.append _).skipSpace_eq]

theorem readCall_written {name : String} {arguments : List Expression}
    (named : isFunctionName name) (empty : ∀ rest, nested (')' :: rest) = none)
    (inside : ∀ argument ∈ arguments, IsNested nested argument) (rest : List Char) :
    readCall nested (name.toList ++ '(' :: (Expression.writtenAll arguments ++ ')' :: rest)) =
      some (.call name arguments, skipSpace rest) := by
  have endsName : EndsName ('(' :: (Expression.writtenAll arguments ++ ')' :: rest)) :=
    forall_mem_head?_cons ⟨isNameChar_of_mem_punctuation (by decide), by decide⟩
  have opening : readSpaced "(" ('(' :: (Expression.writtenAll arguments ++ ')' :: rest)) =
      some (Expression.writtenAll arguments ++ ')' :: rest) := by
    rw [readSpaced_cons rfl (by decide), skipSpace_arguments inside]
  have closing : readSpaced ")" (')' :: rest) = some (skipSpace rest) :=
    readSpaced_cons rfl (by decide)
  have ordinary := (isFunctionName_cases named).1
  rw [readCall, readFullName_append named endsName]
  simp only [Option.bind_eq_bind, Option.bind_some, opening,
    readArguments_written (empty rest) inside, closing, String.ofList_toList]
  rw [ordinary]
  rfl

theorem isPrimary_call {name : String} {arguments : List Expression} (named : isFunctionName name)
    (empty : ∀ rest, nested (')' :: rest) = none)
    (inside : ∀ argument ∈ arguments, IsNested nested argument) :
    IsPrimary nested (Expression.call name arguments).written (.call name arguments) := by
  intro level rest ends
  have text : (Expression.call name arguments).written ++ rest =
      name.toList ++ '(' :: (Expression.writtenAll arguments ++ ')' :: rest) := by
    simp only [Expression.written, List.cons_append, List.append_assoc, List.nil_append]
  have starts := (startsName_of_isFunctionName named).append
    ('(' :: (Expression.writtenAll arguments ++ ')' :: rest))
  obtain ⟨noNumber, noLiteral⟩ := readNumber_readLiteral_eq_none fun char member =>
    .inl (starts.of_mem_head? char member)
  refine ⟨skipSpace rest, ?_, .inr rfl⟩
  rw [text, readPrimary, noNumber, noLiteral, readCall_written named empty inside]
  rfl

/-- A path begins with a slash, or with an axis and its colons. -/
theorem path_begins {absolute : Bool} {steps : List Step} (present : absolute = true ∨ steps ≠ [])
    (rest : List Char) :
    (∃ tail, (Expression.path absolute steps).written ++ rest = '/' :: tail) ∨
      ∃ axis : Axis, ∃ tail, (Expression.path absolute steps).written ++ rest =
        axis.name.toList ++ ':' :: ':' :: tail := by
  cases absolute with
  | true => exact .inl ⟨Step.writtenAll steps ++ rest, rfl⟩
  | false =>
      cases steps with
      | nil => exact absurd rfl (present.resolve_left Bool.false_ne_true)
      | cons step steps =>
          obtain ⟨axis, test, predicates⟩ := step
          refine .inr ⟨axis, test.written ++ (Expression.writtenPredicates predicates ++
            (Step.writtenNext steps ++ rest)), ?_⟩
          simp only [Expression.written, Step.writtenAll, Step.written, List.append_assoc]
          rfl

/-- The name of an axis is not that of a function, because of the colon behind it. -/
theorem readCall_axis_eq_none (axis : Axis) (tail : List Char) :
    readCall nested (axis.name.toList ++ ':' :: ':' :: tail) = none := by
  have name : readName (axis.name.toList ++ ':' :: ':' :: tail) =
      some (axis.name.toList, ':' :: ':' :: tail) :=
    readName_append (isName_axis axis)
      (forall_mem_head?_cons (isNameChar_of_mem_punctuation (by decide)))
  have noLocal : readLocalPart (':' :: ':' :: tail) = none := by
    change readName (':' :: tail) = none
    exact readName_cons_of_not (isNameStart_of_mem_marks (by decide))
  have whole : readFullName (axis.name.toList ++ ':' :: ':' :: tail) =
      some (axis.name.toList, ':' :: ':' :: tail) := by
    rw [readFullName, name]
    simp only [noLocal]
  exact readCall_name_eq_none nested whole rfl

/-- Only a path begins with a slash. -/
theorem readPrimary_slash (tail : List Char) :
    readPrimary nested ('/' :: tail) = readPath nested ('/' :: tail) := by
  have alone : readNumber ('/' :: tail) = none ∧ readLiteral ('/' :: tail) = none :=
    readNumber_readLiteral_eq_none (forall_mem_head?_cons (.inr (by decide)))
  have noCall : readCall nested ('/' :: tail) = none :=
    readCall_eq_none nested (forall_mem_head?_cons (isNameStart_of_mem_marks (by decide)))
  have noGroup : readGroup nested ('/' :: tail) = none := rfl
  rw [readPrimary, alone.1, alone.2, noCall, noGroup]
  rfl

theorem isPrimary_path {absolute : Bool} {steps : List Step}
    (present : absolute = true ∨ steps ≠ []) (each : ∀ step ∈ steps, IsReadStep nested step) :
    IsPrimary nested (Expression.path absolute steps).written (.path absolute steps) := by
  intro level rest ends
  obtain ⟨left, read, skips⟩ := readPath_written present each ends
  refine ⟨left, ?_, skips⟩
  rcases path_begins present rest with ⟨tail, text⟩ | ⟨axis, tail, text⟩
  · rw [text] at read ⊢
    rw [readPrimary_slash, read]
  · have starts := (startsName_of_isName (isName_axis axis)).append (':' :: ':' :: tail)
    obtain ⟨noNumber, noLiteral⟩ := readNumber_readLiteral_eq_none fun char member =>
      .inl (starts.of_mem_head? char member)
    have noCall : readCall nested (axis.name.toList ++ ':' :: ':' :: tail) = none :=
      readCall_axis_eq_none axis tail
    have noGroup : readGroup nested (axis.name.toList ++ ':' :: ':' :: tail) = none :=
      readGroup_eq_none starts.opens (starts.ne_of_mem_head? (by decide))
    rw [text] at read ⊢
    rw [readPrimary, noNumber, noLiteral, noCall, noGroup, read]
    rfl

end Alternatives

end XPath

end XmlRecords
