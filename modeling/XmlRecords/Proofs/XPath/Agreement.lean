import XmlRecords.Proofs.XPath.Locality

/-! # Reading in front of a closing bracket

What is read of a text does not depend on what comes behind it, where this can only be a closing
parenthesis or a bracket is closed before, up to a value that reaches the end of the text. Readers
that look for a closing bracket themselves are only used where one is open, and there the text does
not end before it is closed. So whatever stands in brackets is read without a change.
-/

namespace XmlRecords

variable {α : Type}

namespace XPath

section Agreement

/-- The outcome of reading a text, and that of reading it with more text behind it: the same, up to
a change of a value that reaches the end of the text. One that does so without a change is
settled. -/
inductive Agrees (more : List Char) (settled : α → Prop) (change : α → α → Prop) :
    Option (α × List Char) → Option (α × List Char) → Prop
  | fails : Agrees more settled change none none
  | same (value : α) (rest : List Char) (final : rest = [] → settled value) :
      Agrees more settled change (some (value, rest)) (some (value, rest ++ more))
  | changed {value other : α} (changes : change value other) :
      Agrees more settled change (some (value, [])) (some (other, more))

namespace Agrees

variable {more : List Char} {settled : α → Prop} {change : α → α → Prop}
  {first second : Option (α × List Char)}

/-- Readers that do the same agree, whatever changes are allowed. -/
theorem of_eq (same : second = first.map (extended more))
    (settles : ∀ value, first = some (value, []) → settled value) :
    Agrees more settled change first second := by
  subst same
  cases first with
  | none => exact .fails
  | some taken =>
      obtain ⟨value, rest⟩ := taken
      refine .same value rest fun ended => ?_
      subst ended
      exact settles value rfl

/-- Inside of brackets the text goes on behind what has been read, so nothing is changed. -/
theorem eq_of_rest (agrees : Agrees more settled change first second)
    (behind : ∀ value rest, first = some (value, rest) → rest ≠ []) :
    second = first.map (extended more) := by
  cases agrees with
  | fails => rfl
  | same value rest final => rfl
  | changed changes => exact absurd rfl (behind _ _ rfl)

/-- A choice agrees if its first reader does and its second one does the same on both texts. -/
theorem orElse {third fourth : Option (α × List Char)}
    (agrees : Agrees more settled change first second)
    (same : fourth = third.map (extended more))
    (settles : ∀ value, third = some (value, []) → settled value) :
    Agrees more settled change (first <|> third) (second <|> fourth) := by
  cases agrees with
  | fails => exact .of_eq same settles
  | same value rest final => exact .same value rest final
  | changed changes => exact .changed changes

end Agrees

/-- Readers that agree on the texts of a kind go on reading the same, up to a change of the last
value if it reaches the end of the text. -/
theorem repeats_agree {more : List Char} {read other : Reader α} {settled : α → Prop}
    {change : α → α → Prop} {kind : List Char → Prop}
    (kept : ∀ text value rest, kind text → read text = some (value, rest) → kind rest)
    (agrees : ∀ text, kind text → Agrees more settled change (read text) (other (text ++ more)))
    {text last : List Char} {values : List α} (repeats : Repeats read text values last)
    (here : kind text) :
    (Repeats other (text ++ more) values (last ++ more) ∧
        (last = [] → ∀ value ∈ values.getLast?, settled value)) ∨
      last = [] ∧ ∃ before value final, values = before ++ [value] ∧ change value final ∧
        Repeats other (text ++ more) (before ++ [final]) more := by
  have longer : ∀ rest : List Char, (rest ++ more).length = rest.length + more.length :=
    fun rest => List.length_append
  induction repeats with
  | @stop text fails =>
      have both := agrees text here
      rw [fails] at both
      generalize outcome : other (text ++ more) = result at both
      cases both
      exact .inl ⟨.stop outcome, fun _ _ none => nomatch none⟩
  | @next text rest last value values reads shorter onward ih =>
      have both := agrees text here
      rw [reads] at both
      generalize outcome : other (text ++ more) = result at both
      cases both with
      | same value rest final =>
          have less : (rest ++ more).length < (text ++ more).length := by
            rw [longer, longer]
            omega
          rcases ih (kept _ _ _ here reads) with
            ⟨others, settles⟩ | ⟨ended, before, last, changed, rfl, changes, others⟩
          · refine .inl ⟨.next outcome less others, fun ended => ?_⟩
            cases onward with
            | stop fails => exact fun _ same => Option.some.inj same ▸ final ended
            | next reads shorter onward => exact settles ended
          · exact .inr ⟨ended, value :: before, last, changed, rfl, changes,
              .next outcome less others⟩
      | @changed _ final changes =>
          -- Nothing is read at the end of the text, on neither side.
          have stop := agrees [] (kept _ _ _ here reads)
          cases onward with
          | next _ less _ => cases less
          | stop fails =>
              rw [fails] at stop
              rw [List.nil_append] at stop
              generalize done : other more = result at stop
              cases stop
              have less : more.length < (text ++ more).length := by
                rw [longer]
                exact Nat.lt_add_of_pos_left shorter
              exact .inr ⟨rfl, [], value, final, rfl, changes, .next outcome less (.stop done)⟩

/-- What is read as often as it goes is the same if no value is changed. -/
theorem many_extended {more : List Char} {read other : Reader α} (kind : List Char → Prop)
    (shorter : ∀ text value rest, read text = some (value, rest) → rest.length < text.length)
    (kept : ∀ text value rest, kind text → read text = some (value, rest) → kind rest)
    (same : ∀ text, kind text → other (text ++ more) = (read text).map (extended more))
    {text : List Char} (here : kind text) :
    many other (text ++ more) = extended more (many read text) := by
  have agrees : ∀ text, kind text →
      Agrees more (fun _ => True) (fun _ _ => False) (read text) (other (text ++ more)) :=
    fun text here => .of_eq (same text here) fun _ _ => trivial
  rcases repeats_agree kept agrees (.of_many shorter text) here with
    ⟨repeats, _⟩ | ⟨_, _, _, _, _, absurd, _⟩
  · exact repeats.many_eq
  · exact absurd.elim

end Agreement

section Lengths

/-- A symbol takes something off the text, which is what lets a reader be repeated. -/
theorem length_lt_of_readSymbol {symbol : String} {text rest : List Char}
    (read : readSymbol symbol text = some rest) (written : 0 < symbol.toList.length) :
    rest.length < text.length := by
  rw [after?_eq_some_iff.mp read, List.length_append]
  omega

theorem length_lt_of_readSpaced {symbol : String} {text rest : List Char}
    (read : readSpaced symbol text = some rest) (written : 0 < symbol.toList.length) :
    rest.length < text.length := by
  obtain ⟨behind, symbolRead, rfl⟩ := Option.map_eq_some_iff.mp read
  have less := length_lt_of_readSymbol symbolRead written
  have before := length_skipSpace_le text
  have after := length_skipSpace_le behind
  omega

variable {nested : Reader Expression} {text rest : List Char}

/-- An argument is behind a comma, so each one shortens the text. -/
theorem length_lt_of_readNextArgument (balanced : TakesBalanced nested) {argument : Expression}
    (read : readNextArgument nested text = some (argument, rest)) : rest.length < text.length := by
  obtain ⟨behind, comma, argument⟩ := Option.bind_eq_some_iff.mp read
  have onward := (balanced _ _ _ argument).length_le
  exact Nat.lt_of_le_of_lt onward (length_lt_of_readSpaced comma (by decide))

/-- A predicate is behind a bracket. -/
theorem length_lt_of_readPredicate (balanced : TakesBalanced nested) {predicate : Expression}
    (read : readPredicate nested text = some (predicate, rest)) : rest.length < text.length := by
  simp only [readPredicate, Option.bind_eq_bind, Option.bind_eq_some_iff, Option.pure_def,
    Option.some.injEq, Prod.mk.injEq] at read
  obtain ⟨_, opened, _, content, _, closed, -, rfl⟩ := read
  have onward := (balanced _ _ _ content).length_le
  have last := length_lt_of_readSpaced closed (by decide)
  exact (last.trans_le onward).trans (length_lt_of_readSpaced opened (by decide))

/-- A further step is behind a slash. -/
theorem length_lt_of_readNextStep (balanced : TakesBalanced nested) {steps : List Step}
    (read : readNextStep nested text = some (steps, rest)) : rest.length < text.length := by
  unfold readNextStep at read
  split at read
  · rename_i slashes
    simp only [Option.map_eq_some_iff, Prod.mk.injEq] at read
    obtain ⟨_, step, -, rfl⟩ := read
    have onward := (balanced_step balanced _ _ _ step).length_le
    exact Nat.lt_of_le_of_lt onward (length_lt_of_readSymbol slashes (by decide))
  · simp only [Option.bind_eq_bind, Option.bind_eq_some_iff, Option.pure_def, Option.some.injEq,
      Prod.mk.injEq] at read
    obtain ⟨_, slash, _, step, -, rfl⟩ := read
    have onward := (balanced_step balanced _ _ _ step).length_le
    exact Nat.lt_of_le_of_lt onward (length_lt_of_readSymbol slash (by decide))

end Lengths

section Nested

/-- The text is shorter than a bound, and closes this many brackets at least that are open. -/
structure Within (bound : Nat) (level : Int) (text : List Char) : Prop where
  shorter : text.length < bound
  deep : level ≤ surplus text

namespace Within

variable {bound : Nat} {level : Int} {text rest : List Char}

/-- What has been read without opening or closing a bracket leaves as many to be closed. -/
theorem leaves (within : Within bound level text) (leaves : Leaves 0 text rest) :
    Within bound level rest := by
  refine ⟨Nat.lt_of_le_of_lt leaves.length_le within.shorter, ?_⟩
  rw [leaves.surplus_eq, Int.add_zero]
  exact within.deep

/-- Behind an opening bracket one bracket more is open. -/
theorem opening (within : Within (bound + 1) level text) {symbol : String}
    (opened : readSpaced symbol text = some rest) (mark : symbol ∈ ["(", "["]) :
    Within bound (level + 1) rest := by
  have written : 0 < symbol.toList.length := by
    have each : ∀ symbol ∈ ["(", "["], 0 < symbol.toList.length := forall_mem_of_all (by decide)
    exact each symbol mark
  have less := length_lt_of_readSpaced opened written
  have above := within.shorter
  refine ⟨by omega, ?_⟩
  rw [(leaves_opening opened mark).surplus_eq]
  have deep := within.deep
  omega

/-- Where a bracket is still to be closed, the text goes on. -/
theorem ne_nil (within : Within bound level text) (above : 0 < level) : text ≠ [] := by
  rintro rfl
  have deep := within.deep
  change level ≤ 0 at deep
  omega

end Within

/-- The test of a step reads no bracket but the parentheses of a node type, which are read together.
-/
theorem readAxisTest_extended {more : List Char} {least : Int} (follows : Follows more least)
    {text : List Char} (deep : least ≤ surplus text) :
    readAxisTest (text ++ more) = (readAxisTest text).map (extended more) := by
  refine orElse_extended ?_ (orElse_extended ?_ ?_)
  · rw [follows.readSymbol_plain deep rfl]
    refine bind_symbol_extended fun rest mark => ?_
    have behind := (leaves_plain mark rfl).surplus_eq
    rw [follows.readNodeTest_extended (by omega)]
    exact bind_extended fun _ _ _ => rfl
  · rw [follows.readAxis_extended deep]
    refine bind_extended fun axis rest named => ?_
    have behind := (balanced_axis _ _ _ named).surplus_eq
    dsimp only
    rw [follows.readNodeTest_extended (by omega)]
    exact bind_extended fun _ _ _ => rfl
  · rw [follows.readNodeTest_extended deep]
    exact bind_extended fun _ _ _ => rfl

/-- A reader that goes on in front of more text as another one does in front of the end of the text,
in brackets and on texts below a bound. -/
structure Continues (nested other : Reader Expression) (more : List Char) (least : Int)
    (bound : Nat) : Prop where
  follows : Follows more least
  balanced : TakesBalanced nested
  inside : ∀ text, Within bound (least + 1) text →
    other (text ++ more) = (nested text).map (extended more)

namespace Continues

variable {nested other : Reader Expression} {more text : List Char} {least : Int} {bound : Nat}

/-- An argument stands in the parentheses of its call. -/
theorem nextArgument (continues : Continues nested other more least bound)
    (within : Within bound (least + 1) text) :
    readNextArgument other (text ++ more) = (readNextArgument nested text).map (extended more) := by
  have deep := within.deep
  rw [readNextArgument, continues.follows.readSpaced_extended (by omega) rfl rfl]
  refine bind_symbol_extended fun rest comma => continues.inside rest (within.leaves ?_)
  exact leaves_spaced comma rfl rfl

/-- The arguments are read up to the parenthesis that ends them, which is there on both sides. -/
theorem arguments (continues : Continues nested other more least bound)
    (within : Within bound (least + 1) text) :
    readArguments other (text ++ more) = extended more (readArguments nested text) := by
  rw [readArguments, readArguments, continues.inside text within]
  cases first : nested text with
  | none => rfl
  | some taken =>
      have onward := many_extended (Within bound (least + 1))
        (fun _ _ _ => length_lt_of_readNextArgument continues.balanced)
        (fun _ _ _ within read =>
          within.leaves (balanced_nextArgument continues.balanced _ _ _ read))
        (fun _ => continues.nextArgument)
        (within.leaves (continues.balanced _ _ _ first))
      simp only [Option.map_some, extended] at onward ⊢
      rw [onward]

/-- What stands between brackets is read with them. -/
theorem between (continues : Continues nested other more least bound) {opening closing : String}
    (opens : opening ∈ ["(", "["]) (closes : closing ∈ [")", "]"])
    (within : Within (bound + 1) least text) :
    (do let (content, rest) ← other (← readSpaced opening (text ++ more))
        let rest ← readSpaced closing rest
        return (content, rest)) =
      (do let (content, rest) ← nested (← readSpaced opening text)
          let rest ← readSpaced closing rest
          return (content, rest)).map (extended more) := by
  have opener : ∀ symbol ∈ ["(", "["],
      (symbol.toList.all fun char => decide (char ∉ [')', ']'])) ∧
        symbol.toList.all fun char => decide (char ∉ ['\'', '"']) := forall_mem_of_all (by decide)
  obtain ⟨unclosed, unquoted⟩ := opener opening opens
  rw [continues.follows.readSpaced_extended within.deep unclosed unquoted]
  refine bind_symbol_extended fun rest opened => ?_
  have inside := within.opening opened opens
  rw [continues.inside rest inside]
  refine bind_extended fun content behind read => ?_
  have deep := (inside.leaves (continues.balanced _ _ _ read)).deep
  dsimp only
  rw [continues.follows.readSpaced_closing deep closes]
  exact bind_symbol_extended fun _ _ => rfl

theorem group (continues : Continues nested other more least bound)
    (within : Within (bound + 1) least text) :
    readGroup other (text ++ more) = (readGroup nested text).map (extended more) :=
  continues.between (by decide) (by decide) within

theorem predicate (continues : Continues nested other more least bound)
    (within : Within (bound + 1) least text) :
    readPredicate other (text ++ more) = (readPredicate nested text).map (extended more) :=
  continues.between (by decide) (by decide) within

/-- The parenthesis behind the name opens a bracket, so that the arguments are in one more than the
call. -/
theorem call (continues : Continues nested other more least bound)
    (within : Within (bound + 1) least text) :
    readCall other (text ++ more) = (readCall nested text).map (extended more) := by
  rw [readCall, continues.follows.readFullName_extended within.deep]
  refine bind_extended fun name rest named => ?_
  have before := within.leaves (balanced_fullName _ _ _ named)
  dsimp only
  rw [continues.follows.readSpaced_extended before.deep rfl rfl]
  refine bind_symbol_extended fun behind opened => ?_
  have inside := before.opening opened (by decide)
  have closes : readSpaced ")" ((readArguments nested behind).2 ++ more) =
      (readSpaced ")" (readArguments nested behind).2).map (· ++ more) :=
    continues.follows.readSpaced_closing
      (inside.leaves (leaves_arguments continues.balanced behind)).deep (by decide)
  rw [continues.arguments inside]
  cases isNodeType (String.ofList name) with
  | true => rfl
  | false =>
      simp only [extended, Option.bind_eq_bind, closes]
      exact bind_symbol_extended fun _ _ => rfl

/-- The predicates of a step are in brackets of their own, and its test has none. -/
theorem step (continues : Continues nested other more least bound)
    (within : Within (bound + 1) least text) :
    readStep other (text ++ more) = (readStep nested text).map (extended more) := by
  have follows := continues.follows
  refine orElse_extended (map_symbol_extended (follows.readSymbol_plain within.deep rfl) _) ?_
  refine orElse_extended (map_symbol_extended (follows.readSymbol_plain within.deep rfl) _) ?_
  rw [readAxisTest_extended follows within.deep]
  cases tested : readAxisTest text with
  | none => rfl
  | some taken =>
      have onward := many_extended (Within (bound + 1) least)
        (fun _ _ _ => length_lt_of_readPredicate continues.balanced)
        (fun _ _ _ within read =>
          within.leaves (balanced_predicate continues.balanced _ _ _ read))
        (fun _ => continues.predicate)
        (within.leaves (balanced_axisTest _ _ _ tested))
      simp only [Option.map_some, extended] at onward ⊢
      rw [onward]

/-- A step behind slashes is read as one without them. -/
theorem stepBehind (continues : Continues nested other more least bound)
    (within : Within (bound + 1) least text) {symbol : String} {rest : List Char}
    (read : readSymbol symbol text = some rest) (plain : isPlain symbol.toList) :
    readStep other (rest ++ more) = (readStep nested rest).map (extended more) :=
  continues.step (within.leaves (leaves_plain read plain))

/-- Whether one slash or two are read is told by the text in front, as neither is cut off by its
end. -/
theorem nextStep (continues : Continues nested other more least bound)
    (within : Within (bound + 1) least text) :
    readNextStep other (text ++ more) = (readNextStep nested text).map (extended more) := by
  have follows := continues.follows
  rw [readNextStep, readNextStep, follows.readSymbol_plain within.deep rfl]
  cases slashes : readSymbol "//" text with
  | some rest =>
      simp only [Option.map_some]
      exact map_extended (continues.stepBehind within slashes rfl) fun step =>
        [Step.anywhere, step]
  | none =>
      simp only [Option.map_none]
      rw [follows.readSymbol_plain within.deep rfl]
      refine bind_symbol_extended fun rest slash => ?_
      rw [continues.stepBehind within slash rfl]
      exact bind_extended fun _ _ _ => rfl

theorem firstStep (continues : Continues nested other more least bound)
    (within : Within (bound + 1) least text) :
    readFirstStep other (text ++ more) = (readFirstStep nested text).map (extended more) := by
  have follows := continues.follows
  rw [readFirstStep, readFirstStep, follows.readSymbol_plain within.deep rfl]
  cases slashes : readSymbol "//" text with
  | some rest =>
      simp only [Option.map_some]
      exact map_extended (continues.stepBehind within slashes rfl) fun step =>
        (true, [Step.anywhere, step])
  | none =>
      simp only [Option.map_none]
      rw [follows.readSymbol_plain within.deep rfl]
      cases slash : readSymbol "/" text with
      | some rest =>
          simp only [Option.map_some]
          rw [continues.stepBehind within slash rfl]
          cases readStep nested rest <;> rfl
      | none => exact map_extended (continues.step within) fun step => (false, [step])

/-- A path is its first step and as many more as there are. -/
theorem path (continues : Continues nested other more least bound)
    (within : Within (bound + 1) least text) :
    readPath other (text ++ more) = (readPath nested text).map (extended more) := by
  rw [readPath, continues.firstStep within]
  refine bind_extended fun first rest read => ?_
  have onward := many_extended (Within (bound + 1) least)
    (fun _ _ _ => length_lt_of_readNextStep continues.balanced)
    (fun _ _ _ within read => within.leaves (balanced_nextStep continues.balanced _ _ _ read))
    (fun _ => continues.nextStep)
    (within.leaves (balanced_firstStep continues.balanced _ _ _ read))
  obtain ⟨absolute, steps⟩ := first
  simp only [onward, extended]
  rfl

end Continues

end Nested

end XPath

end XmlRecords
