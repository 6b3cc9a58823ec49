import XmlRecords.Proofs.XPath.Brackets

/-! # Words in front of a closing bracket

No word of an expression goes on behind a bracket that is closed. So a word at the end of a text is
read in the same way when a closing parenthesis comes behind it, and a word inside of brackets
whatever comes behind them. The parentheses behind a node type are the only word with a closing
parenthesis in it: at the end of the text they could be half there, but then a bracket would be left
open.
-/

namespace XmlRecords

variable {α β : Type}

namespace XPath

/-- The text with a closing parenthesis behind it. -/
def closed (text : List Char) : List Char :=
  text ++ [')']

/-- A parenthesis is no white space, so skipping stops in front of it. -/
theorem skipSpace_closed (text : List Char) :
    skipSpace (closed text) = closed (skipSpace text) := by
  rw [closed, skipSpace, List.dropWhile_append, closed, skipSpace]
  split
  · rename_i ended
    rw [List.isEmpty_iff.mp ended]
    rfl
  · rfl

/-- What has been read, with more text behind the rest. -/
def extended (more : List Char) (taken : α × List Char) : α × List Char :=
  (taken.1, taken.2 ++ more)

/-- What can come behind a text without a change to the words in it, where the text closes this many
brackets at least that it does not open: a closing parenthesis, or anything if a bracket is
closed. -/
inductive Follows : (more : List Char) → (least : Int) → Prop
  | parenthesis : Follows [')'] 0
  | anything {more : List Char} : Follows more 1

section Combinators

variable {more : List Char}

/-- Readers one behind the other, each of which is not changed by what comes behind the text. -/
theorem bind_extended {first : Option (α × List Char)}
    {next other : α × List Char → Option (β × List Char)}
    (onward : ∀ value rest, first = some (value, rest) →
      other (value, rest ++ more) = (next (value, rest)).map (extended more)) :
    (first.map (extended more)).bind other = (first.bind next).map (extended more) := by
  cases first with
  | none => rfl
  | some taken => exact onward taken.1 taken.2 rfl

theorem bind_symbol_extended {first : Option (List Char)}
    {next other : List Char → Option (β × List Char)}
    (onward : ∀ rest, first = some rest →
      other (rest ++ more) = (next rest).map (extended more)) :
    (first.map (· ++ more)).bind other = (first.bind next).map (extended more) := by
  cases first with
  | none => rfl
  | some rest => exact onward rest rfl

/-- If no alternative is changed by what comes behind the text, the same one is chosen. -/
theorem orElse_extended {first second other another : Option (α × List Char)}
    (left : other = first.map (extended more)) (right : another = second.map (extended more)) :
    (other <|> another) = (first <|> second).map (extended more) := by
  subst left right
  cases first <;> rfl

/-- What is made of a value does not depend on what comes behind. -/
theorem map_extended {first other : Option (α × List Char)}
    (same : other = first.map (extended more)) (change : α → β) :
    (other.map fun taken => (change taken.1, taken.2)) =
      (first.map fun taken => (change taken.1, taken.2)).map (extended more) := by
  subst same
  cases first <;> rfl

theorem map_symbol_extended {first other : Option (List Char)}
    (same : other = first.map (· ++ more)) (value : α) :
    (other.map fun rest => (value, rest)) =
      (first.map fun rest => (value, rest)).map (extended more) := by
  subst same
  cases first <;> rfl

end Combinators

section Ends

@[simp]
theorem surplus_nil : surplus [] = 0 :=
  rfl

/-- A text without closing brackets does not close more brackets than it opens. -/
theorem surplus_nonpos {text : List Char} (inside : ∀ char ∈ text, char ∉ [')', ']']) :
    surplus text ≤ 0 := by
  have bounded : ∀ quote, surplusFrom quote text ≤ 0 := by
    induction text with
    | nil => exact fun _ => Int.le_refl 0
    | cons char text ih =>
        rw [List.forall_mem_cons] at inside
        have onward := ih inside.2
        intro quote
        cases quote with
        | some quote => exact onward _
        | none =>
            have here : closing char ≤ 0 := by
              unfold closing
              split
              · decide
              · decide
              · exact absurd (by decide) inside.1
              · exact absurd (by decide) inside.1
              · decide
            have behind := onward none
            rw [surplusFrom]
            split
            · exact onward _
            · omega
  exact bounded none

theorem mem_scanned_of_closing : ∀ char ∈ [')', ']'], char ∈ scanned :=
  forall_mem_of_all (by decide)

/-- No name goes on with a closing bracket. -/
theorem isNameChar_closing : ∀ char ∈ [')', ']'], isNameChar char = false := fun char mark =>
  isNameChar_of_mem_scanned char (mem_scanned_of_closing char mark)

/-- In a literal that does not end no bracket counts. -/
theorem surplus_unquoted {quote : Char} {text : List Char} (mark : quote ∈ ['\'', '"'])
    (absent : quote ∉ text) : surplus (quote :: text) = 0 := by
  rw [surplus, surplusFrom, if_pos mark]
  induction text with
  | nil => rfl
  | cons char text ih =>
      rw [List.mem_cons, not_or] at absent
      rw [surplusFrom, if_neg (Ne.symm absent.1), ih absent.2]

/-- A word that does not reach beyond the end of the text is read whatever comes behind. -/
theorem after?_append {word text more : List Char}
    (apart : ∀ char ∈ more.head?, ¬ text ++ [char] <+: word) :
    after? word (text ++ more) = (after? word text).map (· ++ more) := by
  induction word generalizing text with
  | nil => rfl
  | cons expected word ih =>
      cases text with
      | nil =>
          cases more with
          | nil => rfl
          | cons char more =>
              have other : char ≠ expected := by
                rintro rfl
                exact apart char rfl ⟨word, rfl⟩
              exact if_neg other
      | cons char text =>
          by_cases same : char = expected
          · subst same
            have behind : ∀ next ∈ more.head?, ¬ text ++ [next] <+: word := by
              intro next member onward
              exact apart next member ((List.prefix_cons_inj char).mpr onward)
            simp only [List.cons_append, after?, ↓reduceIte]
            exact ih behind
          · simp only [List.cons_append, after?, same, ↓reduceIte, Option.map_none]

/-- A literal needs a quote at its end. -/
theorem readQuoted_eq_none {quote : Char} {text : List Char} (absent : quote ∉ text) :
    readQuoted quote text = none := by
  have row : text.span (· != quote) = (text, []) := by
    have inside : ∀ char ∈ text, (char != quote) = true := fun char member =>
      bne_iff_ne.mpr fun same => absent (same ▸ member)
    have whole : (text ++ []).span (· != quote) = (text, []) :=
      span_append inside fun _ member => nomatch member
    rwa [List.append_nil] at whole
  rw [readQuoted, row]

end Ends

namespace Follows

variable {more text : List Char} {least : Int}

theorem nonneg (follows : Follows more least) : 0 ≤ least := by
  cases follows <;> decide

/-- With no bracket to close, only a parenthesis can come behind. -/
theorem eq_of_nonpos (follows : Follows more least) (deep : least ≤ 0) : more = [')'] := by
  cases follows with
  | parenthesis => rfl
  | anything => omega

/-- Only a parenthesis comes behind a text without closing brackets. -/
theorem eq_parenthesis (follows : Follows more least) (deep : least ≤ surplus text)
    (inside : ∀ char ∈ text, char ∉ [')', ']']) : more = [')'] :=
  follows.eq_of_nonpos (deep.trans (surplus_nonpos inside))

/-- A row of characters that closing brackets do not belong to is the same row in front of more
text: it ends in the text, or else no bracket is closed in it and a parenthesis comes behind. -/
theorem span_extended (follows : Follows more least) (deep : least ≤ surplus text)
    (kind : Char → Bool) (other : ∀ char ∈ [')', ']'], kind char = false) :
    (text ++ more).span kind = ((text.span kind).1, (text.span kind).2 ++ more) := by
  have parts := append_span kind text
  have inside := of_mem_span kind text
  have stop := of_mem_head?_span kind text
  generalize text.span kind = pair at parts inside stop ⊢
  obtain ⟨row, rest⟩ := pair
  have outside : ∀ char ∈ (rest ++ more).head?, kind char = false := by
    cases rest with
    | nil =>
        have unclosed : ∀ char ∈ text, char ∉ [')', ']'] := by
          intro char member mark
          rw [← parts, List.append_nil] at member
          exact Bool.false_ne_true ((other char mark).symm.trans (inside char member))
        rw [follows.eq_parenthesis deep unclosed]
        exact forall_mem_head?_cons (other ')' (by decide))
    | cons char rest => exact stop
  have whole := span_append inside outside
  rwa [← List.append_assoc, parts] at whole

/-- White space at the end of the text is followed by a bracket or the text goes on. -/
theorem skipSpace_extended (follows : Follows more least) (deep : least ≤ surplus text) :
    skipSpace (text ++ more) = skipSpace text ++ more := by
  have row := follows.span_extended deep isSpace (forall_mem_of_all (by decide))
  rw [List.span_eq_takeWhile_dropWhile, List.span_eq_takeWhile_dropWhile] at row
  exact congrArg Prod.snd row

/-- A symbol without closing brackets is read in the text, or not at all. -/
theorem readSymbol_extended (follows : Follows more least) (deep : least ≤ surplus text)
    {symbol : String} (other : symbol.toList.all fun char => decide (char ∉ [')', ']'])) :
    readSymbol symbol (text ++ more) = (readSymbol symbol text).map (· ++ more) := by
  have unclosed : ∀ char ∈ symbol.toList, char ∉ [')', ']'] := forall_mem_of_all other
  refine after?_append fun char member begins => ?_
  have inside : ∀ char ∈ text, char ∉ [')', ']'] := fun char member =>
    unclosed char (begins.mem (List.mem_append_left _ member))
  rw [follows.eq_parenthesis deep inside] at member
  cases member
  exact unclosed ')' (begins.mem (List.mem_append_right _ List.mem_cons_self)) (by decide)

/-- Symbols without brackets and quotes are among them. -/
theorem readSymbol_plain (follows : Follows more least) (deep : least ≤ surplus text)
    {symbol : String} (plain : isPlain symbol.toList) :
    readSymbol symbol (text ++ more) = (readSymbol symbol text).map (· ++ more) := by
  refine follows.readSymbol_extended deep (List.all_eq_true.mpr fun char member => ?_)
  have unscanned := not_mem_scanned_of_isPlain plain char member
  exact decide_eq_true fun mark => unscanned (mem_scanned_of_closing char mark)

/-- White space around a symbol is skipped in the text, if the text does not end there. -/
theorem readSpaced_of_symbol (follows : Follows more least) (deep : least ≤ surplus text)
    {symbol : String} (behind : ∀ rest, readSymbol symbol (skipSpace text) = some rest →
      least ≤ surplus rest)
    (same : readSymbol symbol (skipSpace text ++ more) =
      (readSymbol symbol (skipSpace text)).map (· ++ more)) :
    readSpaced symbol (text ++ more) = (readSpaced symbol text).map (· ++ more) := by
  rw [readSpaced, readSpaced, follows.skipSpace_extended deep, same]
  cases read : readSymbol symbol (skipSpace text) with
  | none => rfl
  | some rest => exact congrArg some (follows.skipSpace_extended (behind rest read))

/-- The same holds of a symbol in white space, which an opening bracket can be too. -/
theorem readSpaced_extended (follows : Follows more least) (deep : least ≤ surplus text)
    {symbol : String} (other : symbol.toList.all fun char => decide (char ∉ [')', ']']))
    (unquoted : symbol.toList.all fun char => decide (char ∉ ['\'', '"'])) :
    readSpaced symbol (text ++ more) = (readSpaced symbol text).map (· ++ more) := by
  have before := (leaves_skipSpace text).surplus_eq
  refine follows.readSpaced_of_symbol deep (fun rest read => ?_)
    (follows.readSymbol_extended (by omega) other)
  have symbolBound := surplus_nonpos (forall_mem_of_all other)
  rw [after?_eq_some_iff.mp read, surplus_append (forall_mem_of_all unquoted)] at before
  omega

/-- Where one bracket more is closed, the text does not end before that. -/
theorem readSpaced_closing (follows : Follows more least) (deep : least + 1 ≤ surplus text)
    {symbol : String} (closes : symbol ∈ [")", "]"]) :
    readSpaced symbol (text ++ more) = (readSpaced symbol text).map (· ++ more) := by
  have closer : ∀ symbol ∈ [")", "]"], symbol.toList.length = 1 :=
    forall_mem_of_all (by decide)
  have short := closer symbol closes
  have nonneg := follows.nonneg
  have before := (leaves_skipSpace text).surplus_eq
  refine follows.readSpaced_of_symbol (by omega) (fun rest read => ?_)
    (after?_append fun char _ begins => ?_)
  · have closed : readSpaced symbol text = some (skipSpace rest) := by rw [readSpaced, read]; rfl
    have behind := (leaves_closing closed closes).surplus_eq
    have after := (leaves_skipSpace rest).surplus_eq
    omega
  · have long := begins.length_le
    rw [List.length_append, short] at long
    have ended : skipSpace text = [] := List.eq_nil_of_length_eq_zero (by
      rw [List.length_singleton] at long
      omega)
    rw [ended, surplus_nil] at before
    omega

/-- The first of several symbols is found in the text, or none. -/
theorem readOneOf_extended (follows : Follows more least) (deep : least ≤ surplus text)
    {symbol : α → String} {values : List α}
    (plain : ∀ value ∈ values, isPlain (symbol value).toList) :
    readOneOf symbol values (text ++ more) =
      (readOneOf symbol values text).map (extended more) := by
  induction values with
  | nil => rfl
  | cons value values ih =>
      rw [List.forall_mem_cons] at plain
      rw [readOneOf, readOneOf, follows.readSymbol_plain deep plain.1]
      cases readSymbol (symbol value) text with
      | none => exact ih plain.2
      | some rest => rfl

/-- A name at the end of the text is not continued by a bracket. -/
theorem readName_extended (follows : Follows more least) (deep : least ≤ surplus text) :
    readName (text ++ more) = (readName text).map (extended more) := by
  cases text with
  | nil =>
      rw [follows.eq_of_nonpos deep]
      exact readName_cons_of_not (isNameStart_of_mem_marks (by decide))
  | cons char text =>
      have row := follows.span_extended deep isNameChar isNameChar_closing
      rw [List.cons_append] at row ⊢
      rw [readName, readName, row]
      split <;> rfl

/-- Nor is a colon, so that a prefix stays one. -/
theorem readLocalPart_extended (follows : Follows more least) (deep : least ≤ surplus text) :
    readLocalPart (text ++ more) = (readLocalPart text).map (extended more) := by
  cases text with
  | nil =>
      rw [follows.eq_of_nonpos deep]
      rfl
  | cons char text =>
      by_cases colon : char = ':'
      · subst colon
        have behind := (leaves_char (by decide : ':' ∉ scanned) text).surplus_eq
        exact follows.readName_extended (by omega)
      · unfold readLocalPart
        rw [List.cons_append]
        split
        · rename_i same
          exact absurd (List.cons.inj same).1 colon
        · split
          · rename_i same
            exact absurd (List.cons.inj same).1 colon
          · rfl

theorem readLocalName_extended (follows : Follows more least) (deep : least ≤ surplus text) :
    readLocalName (text ++ more) = (readLocalName text).map (extended more) := by
  rw [readLocalName, readLocalName, follows.readName_extended deep]
  cases named : readName text with
  | none => rfl
  | some taken =>
      have behind := (balanced_name _ _ _ named).surplus_eq
      simp only [Option.map_some, extended, follows.readLocalPart_extended (by omega :
        least ≤ surplus taken.2)]
      cases readLocalPart taken.2 <;> rfl

theorem readFullName_extended (follows : Follows more least) (deep : least ≤ surplus text) :
    readFullName (text ++ more) = (readFullName text).map (extended more) := by
  rw [readFullName, readFullName, follows.readName_extended deep]
  cases named : readName text with
  | none => rfl
  | some taken =>
      have behind := (balanced_name _ _ _ named).surplus_eq
      simp only [Option.map_some, extended, follows.readLocalPart_extended (by omega :
        least ≤ surplus taken.2)]
      cases readLocalPart taken.2 <;> rfl

/-- A literal that does not end in the text closes no bracket, so only a parenthesis comes behind
it, and does not end it. -/
theorem readQuoted_extended (follows : Follows more least) {quote : Char}
    (mark : quote ∈ ['\'', '"']) (deep : least ≤ surplus (quote :: text)) :
    readQuoted quote (text ++ more) = (readQuoted quote text).map (extended more) := by
  by_cases present : quote ∈ text
  · obtain ⟨content, rest, rfl, absent⟩ := List.eq_append_cons_of_mem present
    rw [readQuoted_append absent, List.append_assoc, List.cons_append, readQuoted_append absent]
    rfl
  · rw [surplus_unquoted mark present] at deep
    have absent : quote ∉ text ++ more := by
      cases follows with
      | anything => omega
      | parenthesis =>
          rw [List.mem_append, not_or, List.mem_singleton]
          refine ⟨present, ?_⟩
          rintro rfl
          exact absurd mark (by decide)
    rw [readQuoted_eq_none absent, readQuoted_eq_none present]
    rfl

/-- The text tells which quote a literal begins with, as no quote comes behind its end. -/
theorem readLiteral_extended (follows : Follows more least) (deep : least ≤ surplus text) :
    readLiteral (text ++ more) = (readLiteral text).map (extended more) := by
  cases text with
  | nil =>
      rw [follows.eq_of_nonpos deep]
      rfl
  | cons char text =>
      by_cases single : char = '\''
      · subst single
        exact follows.readQuoted_extended (by decide) deep
      · by_cases double : char = '"'
        · subst double
          exact follows.readQuoted_extended (by decide) deep
        · have none : ∀ text, readLiteral (char :: text) = none := by
            intro text
            refine readLiteral_eq_none (forall_mem_head?_cons ?_)
            simp only [List.mem_cons, single, double, List.not_mem_nil, or_false, not_false_eq_true]
          rw [List.cons_append, none, none]
          rfl

theorem readKeyword_extended (follows : Follows more least) (deep : least ≤ surplus text)
    {keyword : String} (plain : isPlain keyword.toList) :
    readKeyword keyword (text ++ more) = (readKeyword keyword text).map (· ++ more) := by
  rw [readKeyword, readKeyword, follows.readSymbol_plain deep plain]
  cases read : readSymbol keyword text with
  | none => rfl
  | some rest =>
      cases rest with
      | nil =>
          have behind := (leaves_plain read plain).surplus_eq
          rw [surplus_nil] at behind
          rw [follows.eq_of_nonpos (by omega)]
          exact if_neg (ne_true_of_eq_false (isNameChar_closing ')' (by decide)))
      | cons char rest =>
          simp only [Option.map_some, List.cons_append]
          split <;> rfl

theorem readAxis_extended (follows : Follows more least) (deep : least ≤ surplus text) :
    readAxis (text ++ more) = (readAxis text).map (extended more) := by
  rw [readAxis, follows.readOneOf_extended deep isPlain_axis]
  refine bind_extended fun axis rest named => ?_
  have behind := (balanced_oneOf isPlain_axis _ _ _ named).surplus_eq
  dsimp only
  rw [follows.readSymbol_plain (by omega) rfl]
  exact bind_symbol_extended fun rest _ => rfl

/-- Behind the name of a node type, an opening parenthesis at the end of the text would leave a
bracket open. -/
theorem readSpaced_parentheses (follows : Follows more least) (deep : least ≤ surplus text) :
    readSpaced "()" (text ++ more) = (readSpaced "()" text).map (· ++ more) := by
  have nonneg := follows.nonneg
  have before := (leaves_skipSpace text).surplus_eq
  refine follows.readSpaced_of_symbol deep (fun rest read => ?_)
    (after?_append fun char member begins => ?_)
  · have word : Leaves 0 (skipSpace text) rest := leaves_symbol read rfl rfl
    have behind := word.surplus_eq
    omega
  · generalize skipSpace text = rest at before begins
    rcases rest with _ | ⟨first, _ | ⟨second, rest⟩⟩
    · rw [surplus_nil] at before
      rw [follows.eq_of_nonpos (by omega)] at member
      cases member
      exact absurd begins (by decide)
    · obtain rfl : first = '(' := (List.cons_prefix_cons.mp begins).1
      have unclosed : surplus ['('] = -1 := rfl
      omega
    · have long := begins.length_le
      simp at long

/-- The parentheses behind a node type are read together. Half of them could end the text, but then
a bracket would be open. -/
theorem readNodeType_extended (follows : Follows more least) (deep : least ≤ surplus text)
    {type : String} (plain : isPlain type.toList) :
    readNodeType type (text ++ more) = (readNodeType type text).map (· ++ more) := by
  rw [readNodeType, follows.readSymbol_plain deep plain]
  cases read : readSymbol type text with
  | none => rw [readNodeType, read]; rfl
  | some rest =>
      have behind := (leaves_plain read plain).surplus_eq
      rw [readNodeType, read]
      exact follows.readSpaced_parentheses (by omega)

/-- All tests are names, node types or an asterisk. -/
theorem readNodeTest_extended (follows : Follows more least) (deep : least ≤ surplus text) :
    readNodeTest (text ++ more) = (readNodeTest text).map (extended more) := by
  refine orElse_extended (map_symbol_extended (follows.readSymbol_plain deep rfl) _) ?_
  refine orElse_extended (map_symbol_extended (follows.readNodeType_extended deep rfl) _) ?_
  refine orElse_extended (map_symbol_extended (follows.readNodeType_extended deep rfl) _) ?_
  refine orElse_extended (map_symbol_extended (follows.readNodeType_extended deep rfl) _) ?_
  exact map_extended (follows.readLocalName_extended deep) fun name =>
    NodeTest.name (String.ofList name)

end Follows

end XPath

end XmlRecords
