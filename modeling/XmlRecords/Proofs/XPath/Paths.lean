import XmlRecords.Proofs.XPath.Ends

/-! # Reading location paths

A path is read part by part: a test with the predicates behind it is a step, and a step is read with
the slashes before it. The parts are given by their texts and by what these are read as, whether the
texts spell the steps out or abbreviate them.
-/

namespace XmlRecords

namespace XPath

section Brackets

variable {nested : Reader Expression}

/-- A text in brackets. -/
def bracketed (text : List Char) : List Char :=
  '[' :: text ++ [']']

/-- Predicates are read one behind the other, to where no bracket is. -/
theorem repeats_bracketed {parts : List (List Char × Expression)} {rest behind : List Char}
    (reads : ∀ part ∈ parts, ∀ rest,
      readPredicate nested (bracketed part.1 ++ rest) = some (part.2, skipSpace rest))
    (noBracket : readSpaced "[" rest = none)
    (skips : Skips ((parts.flatMap fun part => bracketed part.1) ++ rest) behind) :
    ∃ left, Repeats (readPredicate nested) behind (parts.map Prod.snd) left ∧ Skips rest left := by
  induction parts generalizing behind with
  | nil =>
      have none := (readSpaced_congr skips.skipSpace_eq).trans noBracket
      refine ⟨behind, .stop ?_, skips⟩
      rw [readPredicate, none]
      rfl
  | cons part parts ih =>
      obtain ⟨left, onward, skipped⟩ := ih
        (fun other member => reads other (List.mem_cons_of_mem part member)) (.inr rfl)
      have here := reads part List.mem_cons_self
        ((parts.flatMap fun part => bracketed part.1) ++ rest)
      have first : behind =
          bracketed part.1 ++ ((parts.flatMap fun part => bracketed part.1) ++ rest) := by
        rw [List.flatMap_cons, List.append_assoc] at skips
        exact skips.eq_of_cons (by decide)
      refine ⟨left, .next (first ▸ here) ?_ onward, skipped⟩
      have shorter := length_skipSpace_le ((parts.flatMap fun part => bracketed part.1) ++ rest)
      rw [first]
      simp only [bracketed, List.cons_append, List.length_cons, List.length_append] at shorter ⊢
      omega

theorem Expression.writtenPredicates_eq (predicates : List Expression) :
    writtenPredicates predicates =
      predicates.flatMap fun predicate => bracketed predicate.written := by
  induction predicates with
  | nil => rfl
  | cons predicate predicates ih =>
      rw [writtenPredicates, ih, List.flatMap_cons, bracketed, List.append_assoc,
        List.singleton_append]

/-- What can stand behind a step: no name, parentheses or predicate goes on. -/
structure EndsStep (rest : List Char) : Prop where
  name : EndsName rest
  parentheses : readSpaced "()" rest = none
  bracket : readSpaced "[" rest = none

theorem endsStep_slash (rest : List Char) : EndsStep ('/' :: rest) := by
  refine ⟨forall_mem_head?_cons ?_, rfl, rfl⟩
  exact ⟨isNameChar_of_mem_punctuation (by decide), by decide⟩

/-- What ends an expression ends the last step of a path too. -/
theorem Ends.endsStep {level : Nat} {rest : List Char} (ends : Ends level rest) :
    EndsStep rest :=
  ⟨ends.endsName, ends.readSpaced_eq rfl (by decide), ends.readSpaced_eq rfl (by decide)⟩

/-- Behind a node test comes what ends the step, or a bracket. -/
theorem EndsStep.predicates {rest : List Char} (ends : EndsStep rest)
    (parts : List (List Char × Expression)) :
    EndsName ((parts.flatMap fun part => bracketed part.1) ++ rest) ∧
      readSpaced "()" ((parts.flatMap fun part => bracketed part.1) ++ rest) = none := by
  cases parts with
  | nil => exact ⟨ends.name, ends.parentheses⟩
  | cons part parts =>
      refine ⟨forall_mem_head?_cons ?_, rfl⟩
      exact ⟨isNameChar_of_mem_punctuation (by decide), by decide⟩

/-- A text is read as a value in front of what can stand behind a step. -/
def ReadsPart (read : Reader α) (text : List Char) (value : α) : Prop :=
  ∀ rest, EndsStep rest → ∃ left, read (text ++ rest) = some (value, left) ∧ Skips rest left

def IsReadStep (nested : Reader Expression) (step : Step) : Prop :=
  ∀ rest, EndsStep rest →
    ∃ left, readStep nested (step.written ++ rest) = some (step, left) ∧ Skips rest left

/-- A step begins with the name of its axis. -/
theorem startsName_step (step : Step) : StartsName step.written := by
  obtain ⟨axis, test, predicates⟩ := step
  rw [Step.written, List.append_assoc, List.append_assoc]
  exact (startsName_of_isName (isName_axis axis)).append _

/-- An axis and a node test are read in front of what can stand behind a node test. -/
def ReadsTest (text : List Char) (axis : Axis) (test : NodeTest) : Prop :=
  ∀ rest, EndsName rest → readSpaced "()" rest = none →
    ∃ left, readAxisTest (text ++ rest) = some ((axis, test), left) ∧ Skips rest left

/-- The axis is spelled out in front of a node test. -/
theorem readsTest_full {text : List Char} {test : NodeTest} (axis : Axis)
    (reads : ∀ rest, EndsName rest → readSpaced "()" rest = none →
      ∃ left, readNodeTest (text ++ rest) = some (test, left) ∧ Skips rest left) :
    ReadsTest (axis.name.toList ++ "::".toList ++ text) axis test := by
  intro rest ends bare
  obtain ⟨left, read, skips⟩ := reads rest ends bare
  have starts := (startsName_of_isName (isName_axis axis)).append ("::".toList ++ (text ++ rest))
  rw [← List.append_assoc] at starts
  have noAt : readSymbol "@" (axis.name.toList ++ "::".toList ++ (text ++ rest)) = none :=
    readSymbol_eq_none rfl (starts.ne_of_mem_head? (by decide))
  refine ⟨left, ?_, skips⟩
  rw [List.append_assoc, readAxisTest, noAt, readAxis_append]
  simp only [Option.bind_eq_bind, Option.bind_some, Option.bind_none, read]
  rfl

/-- An axis and a node test are a step with the predicates behind them. -/
theorem readsPart_step {text : List Char} {axis : Axis} {test : NodeTest}
    {parts : List (List Char × Expression)} (tested : ReadsTest text axis test)
    (noPoint : ∀ rest, ∀ char ∈ (text ++ rest).head?, char ≠ '.')
    (reads : ∀ part ∈ parts, ∀ rest,
      readPredicate nested (bracketed part.1 ++ rest) = some (part.2, skipSpace rest)) :
    ReadsPart (readStep nested) (text ++ parts.flatMap fun part => bracketed part.1)
      (.mk axis test (parts.map Prod.snd)) := by
  intro rest ends
  have behind := ends.predicates parts
  rw [List.append_assoc]
  generalize whole : (parts.flatMap fun part => bracketed part.1) ++ rest = more at behind ⊢
  obtain ⟨middle, read, skips⟩ := tested more behind.1 behind.2
  obtain ⟨left, repeats, skipped⟩ := repeats_bracketed reads ends.bracket (whole ▸ skips)
  have noUp : readSymbol ".." (text ++ more) = none := readSymbol_eq_none rfl (noPoint more)
  have noHere : readSymbol "." (text ++ more) = none := readSymbol_eq_none rfl (noPoint more)
  refine ⟨left, ?_, skipped⟩
  rw [readStep, noUp, noHere, read]
  simp only [Option.map_none, Option.map_some, repeats.many_eq]
  rfl

/-- A step is read with its axis, its test, and one predicate after the other. -/
theorem isReadStep_mk {axis : Axis} {test : NodeTest} {predicates : List Expression}
    (printable : test.isPrintable)
    (inside : ∀ predicate ∈ predicates, IsNested nested predicate) :
    IsReadStep nested (.mk axis test predicates) := by
  have tested : ReadsTest (axis.name.toList ++ "::".toList ++ test.written) axis test :=
    readsTest_full axis fun _ => readNodeTest_written printable
  have noPoint : ∀ rest, ∀ char ∈ (axis.name.toList ++ "::".toList ++ test.written ++ rest).head?,
      char ≠ '.' := by
    intro rest
    rw [List.append_assoc, List.append_assoc]
    exact ((startsName_of_isName (isName_axis axis)).append _).ne_of_mem_head? (by decide)
  have reads : ∀ part ∈ predicates.map fun predicate => (predicate.written, predicate), ∀ rest,
      readPredicate nested (bracketed part.1 ++ rest) = some (part.2, skipSpace rest) := by
    intro part member rest
    obtain ⟨predicate, present, rfl⟩ := List.mem_map.mp member
    rw [bracketed, List.append_assoc]
    exact (inside predicate present).reads_between rfl rfl (by decide) (by decide) rest
  have step := readsPart_step tested noPoint reads
  rwa [List.flatMap_map, ← Expression.writtenPredicates_eq, List.map_map,
    show Prod.snd ∘ (fun predicate : Expression => (predicate.written, predicate)) = id from rfl,
    List.map_id] at step

section Slashes

variable {text : List Char} {step : Step}

/-- No step begins with a slash. -/
theorem ne_slash_of_readStep {taken : Step × List Char} (read : readStep nested text = some taken) :
    ∀ char ∈ text.head?, char ≠ '/' := by
  rintro char member rfl
  have none : readStep nested text = none := by
    refine readStep_eq_none nested fun char other => ?_
    obtain rfl : char = '/' := Option.some.inj (other.symm.trans member)
    exact ⟨isNameStart_of_mem_marks (by decide), by decide⟩
  rw [none] at read
  cases read

/-- No step begins with a slash, so one slash in front of it is not two. -/
theorem readSymbol_slashes_of_readStep {taken : Step × List Char}
    (read : readStep nested text = some taken) : readSymbol "//" ('/' :: text) = none := by
  have noSlash : readSymbol "/" text = none := readSymbol_eq_none rfl (ne_slash_of_readStep read)
  exact noSlash

theorem readNextStep_one (reads : ReadsPart (readStep nested) text step) :
    ReadsPart (readNextStep nested) ('/' :: text) [step] := by
  intro rest ends
  obtain ⟨left, read, skips⟩ := reads rest ends
  have one : readSymbol "/" ('/' :: (text ++ rest)) = some (text ++ rest) := rfl
  have noTwo := readSymbol_slashes_of_readStep read
  refine ⟨left, ?_, skips⟩
  rw [List.cons_append, readNextStep, noTwo]
  simp only [one, read, Option.bind_eq_bind, Option.bind_some]
  rfl

/-- Two slashes stand for a step between them. -/
theorem readNextStep_two (reads : ReadsPart (readStep nested) text step) :
    ReadsPart (readNextStep nested) ('/' :: '/' :: text) [.anywhere, step] := by
  intro rest ends
  obtain ⟨left, read, skips⟩ := reads rest ends
  have two : readSymbol "//" ('/' :: '/' :: (text ++ rest)) = some (text ++ rest) := rfl
  refine ⟨left, ?_, skips⟩
  rw [List.cons_append, List.cons_append, readNextStep, two]
  simp only [read, Option.map_some]

theorem readFirstStep_relative (reads : ReadsPart (readStep nested) text step) :
    ReadsPart (readFirstStep nested) text (false, [step]) := by
  intro rest ends
  obtain ⟨left, read, skips⟩ := reads rest ends
  have noSlash := ne_slash_of_readStep read
  have noTwo : readSymbol "//" (text ++ rest) = none := readSymbol_eq_none rfl noSlash
  have noOne : readSymbol "/" (text ++ rest) = none := readSymbol_eq_none rfl noSlash
  refine ⟨left, ?_, skips⟩
  simp only [readFirstStep, noTwo, noOne, read, Option.map_some]

/-- The first step of an absolute path is read with the slash before it. -/
theorem readFirstStep_one (reads : ReadsPart (readStep nested) text step) :
    ReadsPart (readFirstStep nested) ('/' :: text) (true, [step]) := by
  intro rest ends
  obtain ⟨left, read, skips⟩ := reads rest ends
  have one : readSymbol "/" ('/' :: (text ++ rest)) = some (text ++ rest) := rfl
  have noTwo := readSymbol_slashes_of_readStep read
  refine ⟨left, ?_, skips⟩
  simp only [List.cons_append, readFirstStep, noTwo, one, read]

/-- Two slashes at the beginning mean the root, and a step through all that it contains. -/
theorem readFirstStep_two (reads : ReadsPart (readStep nested) text step) :
    ReadsPart (readFirstStep nested) ('/' :: '/' :: text) (true, [.anywhere, step]) := by
  intro rest ends
  obtain ⟨left, read, skips⟩ := reads rest ends
  have two : readSymbol "//" ('/' :: '/' :: (text ++ rest)) = some (text ++ rest) := rfl
  refine ⟨left, ?_, skips⟩
  simp only [List.cons_append, readFirstStep, two, read, Option.map_some]

/-- A slash that nothing can follow is the root alone. -/
theorem readFirstStep_root {level : Nat} {rest : List Char} (ends : Ends level rest) :
    readFirstStep nested ('/' :: rest) = some ((true, []), rest) := by
  have outside : ∀ char ∈ ' ' :: closers, char ≠ '/' ∧ char ∉ ['.', '@', '*'] ∧
      char ∈ marks := forall_mem_of_all (by decide)
  have noStep : readStep nested rest = none := by
    refine readStep_eq_none nested fun char member => ?_
    obtain ⟨_, other, mark⟩ := outside char (ends.mem_of_head? char member)
    exact ⟨isNameStart_of_mem_marks mark, other⟩
  have noSlash : readSymbol "/" rest = none :=
    readSymbol_eq_none rfl fun char member => (outside char (ends.mem_of_head? char member)).1
  have noTwo : readSymbol "//" ('/' :: rest) = none := noSlash
  have one : readSymbol "/" ('/' :: rest) = some rest := rfl
  simp only [readFirstStep, noTwo, one, noStep]

end Slashes

section Paths

variable {level : Nat} {rest : List Char}

/-- No slash comes behind a path, whether white space is skipped or not. -/
theorem readNextStep_eq_none {behind : List Char} (ends : Ends level rest)
    (skips : Skips rest behind) : readNextStep nested behind = none := by
  have noSlash : ∀ char ∈ behind.head?, char ≠ '/' := by
    intro char member same
    subst same
    rcases skips with rfl | rfl
    · exact absurd (ends.mem_of_head? _ member) (by decide)
    · exact absurd (ends.mem_of_head?_skipSpace _ member) (by decide)
  have noTwo : readSymbol "//" behind = none := readSymbol_eq_none rfl noSlash
  have noOne : readSymbol "/" behind = none := readSymbol_eq_none rfl noSlash
  rw [readNextStep, noTwo]
  dsimp only
  rw [noOne]
  rfl

/-- A text behind a step, with the slashes it begins with, and the steps it is read as. -/
structure ReadsNext (nested : Reader Expression) (part : List Char × List Step) : Prop where
  slash : ∃ tail, part.1 = '/' :: tail
  reads : ReadsPart (readNextStep nested) part.1 part.2

/-- A step is followed by a slash or by what ends the path. -/
theorem endsStep_parts {parts : List (List Char × List Step)} (ends : Ends level rest)
    (each : ∀ part ∈ parts, ReadsNext nested part) :
    EndsStep (parts.flatMap Prod.fst ++ rest) := by
  cases parts with
  | nil => exact ends.endsStep
  | cons part parts =>
      obtain ⟨tail, slash⟩ := (each part List.mem_cons_self).slash
      rw [List.flatMap_cons, slash]
      exact endsStep_slash _

/-- The steps are read one after the other, and no more than are written. The induction is on the
parts. -/
theorem repeats_parts {parts : List (List Char × List Step)} {behind : List Char}
    (ends : Ends level rest) (each : ∀ part ∈ parts, ReadsNext nested part)
    (skips : Skips (parts.flatMap Prod.fst ++ rest) behind) :
    ∃ left, Repeats (readNextStep nested) behind (parts.map Prod.snd) left ∧ Skips rest left := by
  induction parts generalizing behind with
  | nil => exact ⟨behind, .stop (readNextStep_eq_none ends skips), skips⟩
  | cons part parts ih =>
      rw [List.forall_mem_cons] at each
      obtain ⟨⟨⟨tail, slash⟩, reads⟩, others⟩ := each
      have first : behind = part.1 ++ (parts.flatMap Prod.fst ++ rest) := by
        rw [List.flatMap_cons, List.append_assoc] at skips
        rw [slash] at skips ⊢
        exact skips.eq_of_cons (by decide)
      obtain ⟨middle, read, skipped⟩ := reads _ (endsStep_parts ends others)
      obtain ⟨left, onward, done⟩ := ih others skipped
      refine ⟨left, .next (first ▸ read) ?_ onward, done⟩
      have shorter := skipped.length_le
      rw [first, slash]
      simp only [List.length_cons, List.length_append] at shorter ⊢
      omega

/-- A path is its first step and those that are read behind it. -/
theorem readPath_parts {absolute : Bool} {text : List Char} {steps : List Step}
    {parts : List (List Char × List Step)} (ends : Ends level rest)
    (begins : ReadsPart (readFirstStep nested) text (absolute, steps))
    (each : ∀ part ∈ parts, ReadsNext nested part) :
    ∃ left, readPath nested (text ++ (parts.flatMap Prod.fst ++ rest)) =
      some (.path absolute (steps ++ parts.flatMap Prod.snd), left) ∧ Skips rest left := by
  obtain ⟨middle, read, skips⟩ := begins _ (endsStep_parts ends each)
  obtain ⟨left, onward, done⟩ := repeats_parts ends each skips
  refine ⟨left, ?_, done⟩
  rw [readPath, read, List.flatMap_def]
  simp only [Option.bind_eq_bind, Option.bind_some, onward.many_eq]
  rfl

/-- The root alone is a path without steps. -/
theorem readPath_root (ends : Ends level rest) :
    readPath nested ('/' :: rest) = some (.path true [], rest) := by
  have stop : Repeats (readNextStep nested) rest [] rest :=
    .stop (readNextStep_eq_none ends (.inl rfl))
  rw [readPath, readFirstStep_root ends]
  simp only [Option.bind_eq_bind, Option.bind_some, stop.many_eq]
  rfl

theorem Step.writtenNext_eq (others : List Step) :
    writtenNext others = others.flatMap fun step => '/' :: step.written := by
  induction others with
  | nil => rfl
  | cons step others ih => rw [writtenNext, ih, List.flatMap_cons]

/-- A path that is written in full is read up to what ends it. -/
theorem readPath_written {absolute : Bool} {steps : List Step}
    (present : absolute = true ∨ steps ≠ []) (each : ∀ step ∈ steps, IsReadStep nested step)
    (ends : Ends level rest) :
    ∃ left, readPath nested ((Expression.path absolute steps).written ++ rest) =
      some (.path absolute steps, left) ∧ Skips rest left := by
  cases steps with
  | nil =>
      obtain rfl := present.resolve_right fun absent => absent rfl
      exact ⟨rest, readPath_root ends, .inl rfl⟩
  | cons step steps =>
      rw [List.forall_mem_cons] at each
      have others : ∀ part ∈ steps.map fun step => ('/' :: step.written, [step]),
          ReadsNext nested part := by
        intro part member
        obtain ⟨other, present, rfl⟩ := List.mem_map.mp member
        exact ⟨⟨_, rfl⟩, readNextStep_one (each.2 other present)⟩
      have behind : (steps.map fun step => ('/' :: step.written, [step])).flatMap Prod.fst =
          Step.writtenNext steps := by
        rw [List.flatMap_map, Step.writtenNext_eq]
      have flat : (steps.map fun step => ('/' :: step.written, [step])).flatMap Prod.snd =
          steps := by
        rw [List.flatMap_map, List.flatMap_singleton']
      cases absolute with
      | true =>
          have path := readPath_parts ends (readFirstStep_one each.1) others
          rw [behind, flat] at path
          rwa [Expression.written, Step.writtenAll, List.append_assoc, List.append_assoc]
      | false =>
          have path := readPath_parts ends (readFirstStep_relative each.1) others
          rw [behind, flat] at path
          rwa [Expression.written, Step.writtenAll, List.append_assoc, List.append_assoc]

end Paths

end Brackets

end XPath

end XmlRecords
