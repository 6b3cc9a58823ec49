import XmlRecords.Proofs.XPath.Completion
import XmlRecords.Proofs.XPath.PathForm
import XmlRecords.Proofs.XPath.RoundTrip

/-! # Abbreviated location paths

A location path is parsed as the same path in whatever way it is written. A test, a step and what
stands behind slashes are read one by one, and what is between the brackets of a predicate is read
there as it is by itself.
-/

namespace XmlRecords

namespace XPath

section Predicates

/-- Behind a bracket that ends the text, what comes there is reached over white space. -/
theorem readSpaced_last {behind : List Char} (closed : readSpaced "]" behind = some [])
    (rest : List Char) : readSpaced "]" (behind ++ rest) = some (skipSpace rest) := by
  have follows : Follows rest 1 := .anything
  have closing := (leaves_closing closed (by decide)).surplus_eq
  rw [surplus_nil] at closing
  obtain ⟨ending, symbol, blank⟩ := Option.map_eq_some_iff.mp closed
  have behindSpace : skipSpace (behind ++ rest) = "]".toList ++ (ending ++ rest) := by
    rw [follows.skipSpace_extended (by omega), after?_eq_some_iff.mp symbol, List.append_assoc]
  have onward : skipSpace (ending ++ rest) = skipSpace rest := by
    rw [skipSpace, List.dropWhile_append, ← skipSpace, blank]
    rfl
  rw [readSpaced, behindSpace, readSymbol, after?_eq_some_iff.mpr rfl, Option.map_some, onward]

/-- What is read between brackets does not depend on what comes behind them. -/
theorem PredicateText.readPredicate_eq (predicate : PredicateText) {depth : Nat}
    (enough : (bracketed predicate.text).length ≤ depth) (rest : List Char) :
    readPredicate (readNested depth) (bracketed predicate.text ++ rest) =
      some (predicate.content, skipSpace rest) := by
  obtain ⟨text, content, reads⟩ := predicate
  have opening : ∀ rest, readSpaced "[" ('[' :: rest) = some (skipSpace rest) := fun rest =>
    readSpaced_cons rfl (by decide)
  simp only [readPredicate, bracketed, List.cons_append, opening, Option.bind_eq_bind,
    Option.bind_some, Option.bind_eq_some_iff, Option.pure_def, Option.some.injEq,
    Prod.mk.injEq] at reads
  obtain ⟨⟨_, behind⟩, read, last, closed, rfl, rfl⟩ := reads
  -- Behind the opening bracket the text closes one bracket that it does not open.
  have closing := (leaves_closing closed (by decide)).surplus_eq
  have balance := (balanced_nested _ _ _ _ read).surplus_eq
  have spaces := leaves_skipSpace (text ++ [']'])
  have whole := spaces.surplus_eq
  change (0 : Int) = surplus behind + -1 at closing
  have inside : Within (text.length + 2) 1 (skipSpace (text ++ [']'])) := by
    have shorter := spaces.length_le
    rw [List.length_append, List.length_singleton] at shorter
    exact ⟨by omega, by omega⟩
  have below : text.length + 2 ≤ depth := by
    simp only [bracketed, List.cons_append, List.length_cons, List.length_append,
      List.length_nil] at enough
    omega
  have follows : Follows rest 1 := .anything
  have content := nested_extended below inside rest
  rw [← follows.skipSpace_extended (by omega), read] at content
  simp only [readPredicate, bracketed, List.cons_append, opening, Option.bind_eq_bind,
    Option.bind_some, content, Option.map_some, extended, readSpaced_last closed]
  rfl

end Predicates

section Tests

variable {nested : Reader Expression} {rest : List Char}

/-- Node types are not called. -/
theorem readCall_nodeType_eq_none (type : String) (member : type ∈ ["text", "comment", "node"]) :
    readCall nested (type.toList ++ '(' :: ')' :: rest) = none := by
  have types : ∀ type ∈ ["text", "comment", "node"], isNodeType type = true := by decide
  have opens : EndsName ('(' :: ')' :: rest) :=
    forall_mem_head?_cons ⟨isNameChar_of_mem_punctuation (by decide), by decide⟩
  have opening : readSpaced "(" ('(' :: ')' :: rest) = some (skipSpace (')' :: rest)) :=
    readSpaced_cons rfl (by decide)
  rw [readCall, readFullName_name (isName_nodeType type member) opens]
  simp only [Option.bind_eq_bind, Option.bind_some, opening, String.ofList_toList,
    types type member]
  rfl

namespace TestForm

/-- A node test is an asterisk, or it begins with a name that neither goes on behind it nor is that
of an axis. -/
theorem cases_text (form : TestForm) : form.text = ['*'] ∨
    ∃ name behind, form.text = name ++ behind ∧ isName name = true ∧ ∀ rest, EndsName rest →
      (∀ char ∈ (behind ++ rest).head?, isNameChar char = false) ∧
        readSymbol "::" (behind ++ rest) = none := by
  have parentheses : ∀ rest, (∀ char ∈ ("()".toList ++ rest).head?, isNameChar char = false) ∧
      readSymbol "::" ("()".toList ++ rest) = none := fun rest =>
    ⟨forall_mem_head?_cons (isNameChar_of_mem_punctuation (by decide)), rfl⟩
  cases form with
  | prefixed space word spaceNamed wordNamed =>
      refine .inr ⟨space.toList, ':' :: word.toList, rfl, spaceNamed, fun rest _ => ⟨?_, ?_⟩⟩
      · exact forall_mem_head?_cons (isNameChar_of_mem_punctuation (by decide))
      · have starts := (startsName_of_isName wordNamed).append rest
        have noColon : readSymbol ":" (word.toList ++ rest) = none :=
          readSymbol_eq_none rfl (starts.ne_of_mem_head? (by decide))
        exact noColon
  | plain test printable =>
      cases test with
      | any => exact .inl rfl
      | text =>
          exact .inr ⟨"text".toList, "()".toList, rfl, isName_nodeType "text" (by decide),
            fun rest _ => parentheses rest⟩
      | comment =>
          exact .inr ⟨"comment".toList, "()".toList, rfl, isName_nodeType "comment" (by decide),
            fun rest _ => parentheses rest⟩
      | node =>
          exact .inr ⟨"node".toList, "()".toList, rfl, isName_nodeType "node" (by decide),
            fun rest _ => parentheses rest⟩
      | name word =>
          refine .inr ⟨word.toList, [], (List.append_nil _).symm, printable, fun rest ends => ?_⟩
          refine ⟨ends.isNameChar_eq, readSymbol_eq_none rfl fun char member => ?_⟩
          exact (ends char member).2

/-- A written test begins as a name does, or with the star that stands for all names. -/
theorem begins (form : TestForm) (rest : List Char) :
    ∀ char ∈ (form.text ++ rest).head?, isNameStart char = true ∨ char = '*' := by
  rcases form.cases_text with star | ⟨name, behind, parts, named, -⟩
  · rw [star]
    exact forall_mem_head?_cons (.inr rfl)
  · rw [parts, List.append_assoc]
    intro char member
    exact .inl (((startsName_of_isName named).append _).of_mem_head? char member)

/-- No written test begins with another mark. -/
theorem ne_of_mem_head? (form : TestForm) (rest : List Char) {mark : Char}
    (excluded : mark ∈ marks) (other : mark ≠ '*') :
    ∀ char ∈ (form.text ++ rest).head?, char ≠ mark := by
  intro char member
  rcases form.begins rest char member with start | rfl
  · exact ne_of_isNameStart start excluded
  · exact other.symm

/-- A node test is read up to where no name and no parentheses go on. -/
theorem reads (form : TestForm) (ends : EndsName rest) (bare : readSpaced "()" rest = none) :
    ∃ left, readNodeTest (form.text ++ rest) = some (form.test, left) ∧ Skips rest left := by
  cases form with
  | plain test printable => exact readNodeTest_written printable ends bare
  | prefixed space word spaceNamed wordNamed =>
      have whole : (prefixed space word spaceNamed wordNamed).text ++ rest =
          space.toList ++ ':' :: (word.toList ++ rest) := by
        rw [text, List.append_assoc, List.cons_append]
      have noStar : readSymbol "*" (space.toList ++ ':' :: (word.toList ++ rest)) = none := by
        have starts := (startsName_of_isName spaceNamed).append (':' :: (word.toList ++ rest))
        exact readSymbol_eq_none rfl (starts.ne_of_mem_head? (by decide))
      have noType : ∀ type ∈ ["text", "comment", "node"],
          readNodeType type (space.toList ++ ':' :: (word.toList ++ rest)) = none := by
        intro type member
        refine readNodeType_name (isName_nodeType type member) spaceNamed ?_ rfl
        exact forall_mem_head?_cons (isNameChar_of_mem_punctuation (by decide))
      refine ⟨rest, ?_, .inl rfl⟩
      rw [whole, readNodeTest, noStar, noType "text" (by decide), noType "comment" (by decide),
        noType "node" (by decide), readLocalName_prefixed spaceNamed wordNamed ends]
      change some (NodeTest.name (String.ofList word.toList), rest) = _
      rw [String.ofList_toList, test]

/-- Without an axis the child axis is meant. -/
theorem readsTest_child (form : TestForm) : ReadsTest form.text .child form.test := by
  intro rest ends bare
  obtain ⟨left, read, skips⟩ := form.reads ends bare
  have noAt : readSymbol "@" (form.text ++ rest) = none :=
    readSymbol_eq_none rfl (form.ne_of_mem_head? rest (by decide) (by decide))
  have noAxis : readAxis (form.text ++ rest) = none := by
    rcases form.cases_text with star | ⟨name, behind, parts, named, apart⟩
    · rw [star]
      exact readAxis_eq_none (forall_mem_head?_cons (isNameStart_of_mem_marks (by decide)))
    · obtain ⟨outside, noColons⟩ := apart rest ends
      rw [parts, List.append_assoc]
      exact readAxis_name_eq_none named outside noColons
  refine ⟨left, ?_, skips⟩
  rw [readAxisTest, noAt, noAxis]
  simp only [Option.bind_eq_bind, Option.bind_some, Option.bind_none, read]
  rfl

/-- The mark `@` stands for the axis of attributes. -/
theorem readsTest_attr (form : TestForm) : ReadsTest ('@' :: form.text) .attr form.test := by
  intro rest ends bare
  obtain ⟨left, read, skips⟩ := form.reads ends bare
  have sign : readSymbol "@" ('@' :: (form.text ++ rest)) = some (form.text ++ rest) := rfl
  refine ⟨left, ?_, skips⟩
  rw [List.cons_append, readAxisTest, sign]
  simp only [Option.bind_eq_bind, Option.bind_some, read]
  rfl

/-- A node test is no call: where there are parentheses, it is that of a node type. -/
theorem readCall_eq (form : TestForm) (ends : EndsName rest) (bare : readSpaced "(" rest = none) :
    readCall nested (form.text ++ rest) = none := by
  cases form with
  | prefixed space word spaceNamed wordNamed =>
      rw [text, List.append_assoc, List.cons_append]
      exact readCall_name_eq_none nested (readFullName_prefixed spaceNamed wordNamed ends) bare
  | plain test printable =>
      cases test with
      | any =>
          exact readCall_eq_none nested
            (forall_mem_head?_cons (isNameStart_of_mem_marks (by decide)))
      | text => exact readCall_nodeType_eq_none "text" (by decide)
      | comment => exact readCall_nodeType_eq_none "comment" (by decide)
      | node => exact readCall_nodeType_eq_none "node" (by decide)
      | name word => exact readCall_name_eq_none nested (readFullName_name printable ends) bare

/-- No white space stands at the end of a written test. -/
theorem closes (form : TestForm) : Closes form.text := by
  cases form with
  | plain test printable => exact closes_test printable
  | prefixed space word spaceNamed wordNamed =>
      have printable : (NodeTest.name word).isPrintable := wordNamed
      have name : Closes word.toList := closes_test printable
      exact (name.append [':']).append space.toList

end TestForm

end Tests

section Steps

variable {nested : Reader Expression} {rest : List Char}

/-- Predicates are read one behind the other, each up to its closing bracket. -/
theorem reads_writtenIn {predicates : List PredicateText} {depth : Nat}
    (enough : (writtenIn predicates).length ≤ depth) :
    ∀ part ∈ predicates.map fun predicate => (predicate.text, predicate.content), ∀ rest,
      readPredicate (readNested depth) (bracketed part.1 ++ rest) =
        some (part.2, skipSpace rest) := by
  intro part member rest
  obtain ⟨predicate, present, rfl⟩ := List.mem_map.mp member
  have shorter := length_le_flatMap (fun predicate => bracketed predicate.text) present
  exact predicate.readPredicate_eq (shorter.trans enough) rest

/-- A step is read with its predicates, if the bound on the depth reaches them. -/
theorem readsPart_tested {axis : Axis} {text : List Char} {test : NodeTest}
    {predicates : List PredicateText} {depth : Nat} (tested : ReadsTest text axis test)
    (noPoint : ∀ rest, ∀ char ∈ (text ++ rest).head?, char ≠ '.')
    (enough : (text ++ writtenIn predicates).length ≤ depth) :
    ReadsPart (readStep (readNested depth)) (text ++ writtenIn predicates)
      (.mk axis test (predicates.map PredicateText.content)) := by
  have inside : (writtenIn predicates).length ≤ depth := by
    rw [List.length_append] at enough
    omega
  have step := readsPart_step tested noPoint (reads_writtenIn inside)
  rwa [List.flatMap_map, List.map_map] at step

/-- Behind a name there is no point, as it would be read as a part of the name. -/
theorem EndsName.ne_point (ends : EndsName rest) : ∀ char ∈ rest.head?, char ≠ '.' := by
  rintro char member rfl
  have inside : isNameChar '.' = true := by decide
  exact Bool.false_ne_true ((ends.isNameChar_eq '.' member).symm.trans inside)

/-- Each form of a step is read as the step that it stands for. -/
theorem StepForm.reads (form : StepForm) {depth : Nat} (enough : form.text.length ≤ depth) :
    ReadsPart (readStep (readNested depth)) form.text form.step := by
  cases form with
  | full axis test predicates =>
      refine readsPart_tested (readsTest_full axis fun _ => test.reads) (fun rest => ?_) enough
      rw [List.append_assoc, List.append_assoc]
      exact ((startsName_of_isName (isName_axis axis)).append _).ne_of_mem_head? (by decide)
  | child test predicates =>
      exact readsPart_tested test.readsTest_child
        (fun rest => test.ne_of_mem_head? rest (by decide) (by decide)) enough
  | attr test predicates =>
      exact readsPart_tested test.readsTest_attr
        (fun rest => forall_mem_head?_cons (by decide)) enough
  | here =>
      intro rest ends
      have noPoint : readSymbol "." rest = none := readSymbol_eq_none rfl ends.name.ne_point
      have noUp : readSymbol ".." ('.' :: rest) = none := noPoint
      refine ⟨rest, ?_, .inl rfl⟩
      change readStep (readNested depth) ('.' :: rest) = _
      rw [readStep, noUp]
      rfl
  | up => exact fun rest ends => ⟨rest, rfl, .inl rfl⟩

/-- What begins with a point is no number if no digit comes behind it. -/
theorem readNumber_point_eq_none {text : List Char}
    (other : ∀ char ∈ text.head?, char.isDigit = false) : readNumber ('.' :: text) = none := by
  have point : ∀ char ∈ ('.' :: text).head?, char.isDigit = false :=
    forall_mem_head?_cons (by decide)
  have bare : ('.' :: text).span Char.isDigit = ([], '.' :: text) :=
    span_append (fun _ member => absurd member List.not_mem_nil) point
  have behind : text.span Char.isDigit = ([], text) :=
    span_append (fun _ member => absurd member List.not_mem_nil) other
  unfold readNumber
  rw [bare]
  simp only [behind]

namespace StepForm

/-- A written step begins as a name does, or with one of its own marks. -/
theorem begins (form : StepForm) (rest : List Char) :
    ∀ char ∈ (form.text ++ rest).head?, isNameStart char = true ∨ char ∈ ['.', '@', '*'] := by
  cases form with
  | full axis test predicates =>
      have starts := (startsName_of_isName (isName_axis axis)).append
        ("::".toList ++ (test.text ++ (writtenIn predicates ++ rest)))
      simp only [text, List.append_assoc]
      exact fun char member => .inl (starts.of_mem_head? char member)
  | child test predicates =>
      rw [text, List.append_assoc]
      intro char member
      rcases test.begins _ char member with start | rfl
      · exact .inl start
      · exact .inr (by decide)
  | attr test predicates => exact forall_mem_head?_cons (.inr (by decide))
  | here => exact forall_mem_head?_cons (.inr (by decide))
  | up => exact forall_mem_head?_cons (.inr (by decide))

theorem text_ne_nil (form : StepForm) : form.text ≠ [] := by
  cases form with
  | full axis test predicates =>
      obtain ⟨first, others, written, -⟩ := startsName_of_isName (isName_axis axis)
      rw [text, written]
      exact List.cons_ne_nil first _
  | child test predicates =>
      intro empty
      have absent := (List.append_eq_nil_iff.mp empty).1
      rcases test.cases_text with star | ⟨name, behind, parts, named, -⟩
      · rw [star] at absent
        cases absent
      · rw [parts] at absent
        rw [(List.append_eq_nil_iff.mp absent).1] at named
        cases named
  | attr test predicates => exact List.cons_ne_nil '@' _
  | here => exact List.cons_ne_nil '.' _
  | up => exact List.cons_ne_nil '.' _

/-- No white space stands before a written step. -/
theorem opens (form : StepForm) : Opens form.text := by
  have solid : ∀ mark ∈ ['.', '@', '*'], Text.isBlank mark = false := forall_mem_of_all (by decide)
  have begins := form.begins []
  rw [List.append_nil] at begins
  obtain ⟨first, others, written⟩ := List.exists_cons_of_ne_nil form.text_ne_nil
  rw [written] at begins
  refine ⟨first, others, written, ?_⟩
  rcases begins first rfl with start | mark
  · exact isBlank_of_isNameChar (isNameChar_of_isNameStart start)
  · exact solid first mark

/-- A written step is not taken for a number or a string literal, which are tried before paths. -/
theorem readNumber_readLiteral (form : StepForm) (ends : EndsStep rest) :
    readNumber (form.text ++ rest) = none ∧ readLiteral (form.text ++ rest) = none := by
  have point : ∀ text : List Char, readLiteral ('.' :: text) = none := fun text =>
    readLiteral_eq_none (forall_mem_head?_cons (by decide))
  cases form with
  | full axis test predicates =>
      have starts := (startsName_of_isName (isName_axis axis)).append
        ("::".toList ++ (test.text ++ (writtenIn predicates ++ rest)))
      simp only [text, List.append_assoc]
      exact readNumber_readLiteral_eq_none fun char member =>
        .inl (starts.of_mem_head? char member)
  | child test predicates =>
      rw [text, List.append_assoc]
      refine readNumber_readLiteral_eq_none fun char member => ?_
      rcases test.begins _ char member with start | rfl
      · exact .inl start
      · exact .inr (by decide)
  | attr test predicates =>
      exact readNumber_readLiteral_eq_none (forall_mem_head?_cons (.inr (by decide)))
  | here =>
      refine ⟨readNumber_point_eq_none fun char member => ?_, point rest⟩
      cases digit : char.isDigit with
      | false => rfl
      | true =>
          have inside := isNameChar_of_isDigit digit
          exact absurd ((ends.name.isNameChar_eq char member).symm.trans inside)
            Bool.false_ne_true
  | up =>
      exact ⟨readNumber_point_eq_none (forall_mem_head?_cons (by decide)), point ('.' :: rest)⟩

/-- A written step is not taken for a call, unless a parenthesis stands behind it. -/
theorem readCall_eq (form : StepForm) (ends : EndsStep rest) (bare : readSpaced "(" rest = none) :
    readCall nested (form.text ++ rest) = none := by
  have unnamed : ∀ mark ∈ ['.', '@'], ∀ text, readCall nested (mark :: text) = none := by
    intro mark member text
    have other : ∀ mark ∈ ['.', '@'], mark ∈ marks := forall_mem_of_all (by decide)
    exact readCall_eq_none nested
      (forall_mem_head?_cons (isNameStart_of_mem_marks (other mark member)))
  cases form with
  | full axis test predicates =>
      simp only [text, List.append_assoc]
      exact readCall_axis_eq_none axis _
  | child test predicates =>
      have behind := ends.predicates
        (predicates.map fun predicate => (predicate.text, predicate.content))
      rw [List.flatMap_map] at behind
      rw [text, List.append_assoc]
      refine test.readCall_eq behind.1 ?_
      cases predicates with
      | nil => exact bare
      | cons predicate predicates => rfl
  | attr test predicates => exact unnamed '@' (by decide) _
  | here => exact unnamed '.' (by decide) _
  | up => exact unnamed '.' (by decide) _

/-- A step is neither a number nor a literal, nor a call or a group. -/
theorem readPrimary_eq (form : StepForm) (ends : EndsStep rest)
    (bare : readSpaced "(" rest = none) :
    readPrimary nested (form.text ++ rest) = readPath nested (form.text ++ rest) := by
  obtain ⟨noNumber, noLiteral⟩ := form.readNumber_readLiteral ends
  have noGroup : readGroup nested (form.text ++ rest) = none := by
    refine readGroup_eq_none (form.opens.append rest) fun char member => ?_
    rcases form.begins rest char member with start | mark
    · exact ne_of_isNameStart start (by decide)
    · rintro rfl
      exact absurd mark (by decide)
  rw [readPrimary, noNumber, noLiteral, form.readCall_eq ends bare, noGroup]
  rfl

/-- No white space stands at the end of a written step. -/
theorem closes (form : StepForm) : Closes form.text := by
  have tested : ∀ (test : TestForm) (predicates : List PredicateText),
      Closes (test.text ++ writtenIn predicates) := fun test predicates =>
    closes_flatMap test.closes fun _ _ => ⟨_, ']', rfl, by decide⟩
  cases form with
  | full axis test predicates =>
      rw [text, List.append_assoc]
      exact (tested test predicates).append _
  | child test predicates => exact tested test predicates
  | attr test predicates => exact (tested test predicates).append ['@']
  | here => exact ⟨[], '.', rfl, by decide⟩
  | up => exact ⟨['.'], '.', rfl, by decide⟩

end StepForm

end Steps

section Paths

variable {nested : Reader Expression} {depth : Nat}

namespace Link

/-- The slashes before a step make its text longer. -/
theorem length_step_lt (link : Link) : link.step.text.length < link.text.length := by
  obtain ⟨doubled, step⟩ := link
  cases doubled <;> simp [text]

/-- All but the first step of a path stand behind a slash. -/
theorem slash (link : Link) : ∃ tail, link.text = '/' :: tail := by
  obtain ⟨doubled, step⟩ := link
  cases doubled with
  | true => exact ⟨'/' :: step.text, rfl⟩
  | false => exact ⟨step.text, rfl⟩

/-- A step behind slashes is read with the step that two slashes stand for. -/
theorem readsNext (link : Link) (enough : link.text.length ≤ depth) :
    ReadsNext (readNested depth) (link.text, link.steps) := by
  refine ⟨link.slash, ?_⟩
  have step := link.step.reads (link.length_step_lt.le.trans enough)
  obtain ⟨doubled, form⟩ := link
  cases doubled with
  | true => exact readNextStep_two step
  | false => exact readNextStep_one step

/-- Slashes before the first step make a path absolute. -/
theorem readsFirst (link : Link) (enough : link.text.length ≤ depth) :
    ReadsPart (readFirstStep (readNested depth)) link.text (true, link.steps) := by
  have step := link.step.reads (link.length_step_lt.le.trans enough)
  obtain ⟨doubled, form⟩ := link
  cases doubled with
  | true => exact readFirstStep_two step
  | false => exact readFirstStep_one step

/-- Slashes before a step leave its end as it is. -/
theorem closes (link : Link) : Closes link.text := by
  obtain ⟨doubled, form⟩ := link
  cases doubled with
  | true => exact form.closes.append ['/', '/']
  | false => exact form.closes.append ['/']

end Link

/-- Behind the first step of a path come those that are read with their slashes. -/
theorem readPath_links {absolute : Bool} {text : List Char} {steps : List Step}
    {links : List Link} {level : Nat} {rest : List Char} (ends : Ends level rest)
    (begins : ReadsPart (readFirstStep (readNested depth)) text (absolute, steps))
    (enough : (links.flatMap Link.text).length ≤ depth) :
    ∃ left, readPath (readNested depth) (text ++ (links.flatMap Link.text ++ rest)) =
      some (.path absolute (steps ++ links.flatMap Link.steps), left) ∧ Skips rest left := by
  have each : ∀ part ∈ links.map fun link => (link.text, link.steps),
      ReadsNext (readNested depth) part := by
    intro part member
    obtain ⟨link, present, rfl⟩ := List.mem_map.mp member
    exact link.readsNext ((length_le_flatMap Link.text present).trans enough)
  have path := readPath_parts ends begins each
  rwa [List.flatMap_map, List.flatMap_map] at path

/-- Where a slash or the end of the path is, neither the step nor a call goes on. -/
theorem ends_links {level : Nat} {rest : List Char} (ends : Ends level rest) (links : List Link) :
    EndsStep (links.flatMap Link.text ++ rest) ∧
      readSpaced "(" (links.flatMap Link.text ++ rest) = none := by
  cases links with
  | nil => exact ⟨ends.endsStep, ends.readSpaced_eq rfl (by decide)⟩
  | cons link links =>
      obtain ⟨tail, slash⟩ := link.slash
      rw [List.flatMap_cons, slash]
      exact ⟨endsStep_slash _, rfl⟩

namespace PathForm

/-- A written path stands for itself wherever an expression without an operator may stand. -/
theorem isPrimary (form : PathForm) (enough : form.text.length ≤ depth) :
    IsPrimary (readNested depth) form.text form.path := by
  intro level rest ends
  cases form with
  | absolute links =>
      cases links with
      | nil => exact ⟨rest, (readPrimary_slash rest).trans (readPath_root ends), .inl rfl⟩
      | cons link links =>
          rw [text, List.length_append] at enough
          have others : (links.flatMap Link.text).length ≤ depth := by omega
          obtain ⟨left, read, skips⟩ := readPath_links ends (link.readsFirst (by omega)) others
          obtain ⟨tail, slash⟩ := link.slash
          refine ⟨left, ?_, skips⟩
          rw [text, List.append_assoc, path, List.flatMap_cons]
          rw [slash, List.cons_append] at read ⊢
          rw [readPrimary_slash, read]
  | relative first links =>
      rw [text, List.length_append] at enough
      have here : first.text.length ≤ depth := by omega
      have others : (links.flatMap Link.text).length ≤ depth := by omega
      have step := readFirstStep_relative (first.reads here)
      obtain ⟨left, read, skips⟩ := readPath_links ends step others
      obtain ⟨behind, bare⟩ := ends_links ends links
      refine ⟨left, ?_, skips⟩
      rw [text, List.append_assoc, first.readPrimary_eq behind bare, read, path,
        List.singleton_append]

theorem opens (form : PathForm) : Opens form.text := by
  cases form with
  | absolute links =>
      cases links with
      | nil => exact ⟨'/', [], rfl, by decide⟩
      | cons link links =>
          obtain ⟨tail, slash⟩ := link.slash
          rw [text, slash]
          exact ⟨'/', _, rfl, by decide⟩
  | relative first links => exact first.opens.append _

/-- No white space stands at the end of a written path. -/
theorem closes (form : PathForm) : Closes form.text := by
  cases form with
  | absolute links =>
      cases links with
      | nil => exact ⟨[], '/', rfl, by decide⟩
      | cons link links => exact closes_flatMap link.closes fun other _ => other.closes
  | relative first links => exact closes_flatMap first.closes fun other _ => other.closes

/-- Whatever way a path is written in, it is parsed as this path. -/
theorem parse_eq (form : PathForm) : Expression.parse form.print = .ok form.path := by
  have primary := form.isPrimary (Nat.le_refl _)
  exact Expression.parse_of_readsAt form.opens form.closes (Nat.le_refl 7)
    (primary.readsAt form.opens)

end PathForm

end Paths

namespace Expression

/-- An abbreviated path is parsed as its expansion is. So a name alone is parsed as a step to the
children with this name, also where it is a keyword or begins as an axis or a node type does. -/
theorem parse_abbreviated :
    (∀ form : PathForm, form.expanded.isFull = true ∧ parse form.print = .ok form.path ∧
        parse form.expanded.print = .ok form.path) ∧
      ∀ name : String, isName name.toList = true →
        parse name = .ok (.path false [.mk .child (.name name) []]) := by
  constructor
  · intro form
    refine ⟨form.isFull_expanded, form.parse_eq, ?_⟩
    rw [form.expanded.parse_eq, form.path_expanded]
  · intro name named
    have parsed := (PathForm.relative (.child (.plain (.name name) named) []) []).parse_eq
    have written : (PathForm.relative (.child (.plain (.name name) named) []) []).print = name := by
      change String.ofList (name.toList ++ [] ++ []) = name
      rw [List.append_nil, List.append_nil, String.ofList_toList]
    rw [written] at parsed
    exact parsed

/-- Two slashes, a prefix, a predicate with white space and a bracket in a literal, and names that
begin as a node type and an axis do. -/
theorem parse_abbreviated_ancestor :
    let predicate : PredicateText := ⟨" @text = ']' ".toList, _, rfl⟩
    let form : PathForm := .relative .up
      [⟨true, .child (.prefixed "p" "node-list" (by decide) (by decide)) [predicate]⟩,
        ⟨false, .attr (.plain (.name "self") (by decide)) []⟩]
    form.print = "..//p:node-list[ @text = ']' ]/@self" ∧
      form.expanded.print = "parent::node()/descendant-or-self::node()/child::node-list" ++
        "[ @text = ']' ]/attribute::self" ∧
      parse form.print = parse form.expanded.print ∧
      isName "ancestor-or-self".toList = true ∧ parse "ancestor-or-self" =
        .ok (.path false [.mk .child (.name "ancestor-or-self") []]) := by
  intro predicate form
  refine ⟨by decide +kernel, by decide +kernel, ?_, by decide +kernel, ?_⟩
  · have both := (parse_abbreviated.1 form).2
    rw [both.1, both.2]
  · exact parse_abbreviated.2 "ancestor-or-self" (by decide +kernel)

end Expression

end XPath

end XmlRecords
