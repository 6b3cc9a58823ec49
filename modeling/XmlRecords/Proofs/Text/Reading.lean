import Mathlib.Data.List.TakeDrop
import XmlRecords.Text.Blank
import XmlRecords.Text.Reader

/-! # What readers take off a text

A word is read exactly off the texts that begin with it, and a row of characters of one kind up to
the first character of another kind. `Repeats` says what a reader gives when it is applied as often
as it goes, without the bound that `many` puts on it.
-/

namespace XmlRecords

variable {α : Type}

/-- What is decided of the members of a list, one by one. Deciding the statement itself could mean
to go through all characters. -/
theorem forall_mem_of_all {property : α → Prop} [DecidablePred property] {values : List α}
    (checked : values.all fun value => decide (property value)) :
    ∀ value ∈ values, property value :=
  fun value member => of_decide_eq_true (List.all_eq_true.mp checked value member)

theorem forall_mem_head?_cons {property : α → Prop} {first : α} {others : List α}
    (holds : property first) : ∀ value ∈ (first :: others).head?, property value := by
  intro value member
  cases member
  exact holds

/-- A word is read off the texts that begin with it, and leaves what comes behind it. -/
theorem after?_eq_some_iff {word text rest : List Char} :
    after? word text = some rest ↔ text = word ++ rest := by
  induction word generalizing text with
  | nil => simp only [after?, Option.some.injEq, List.nil_append]
  | cons expected word ih =>
      cases text with
      | nil => simp only [after?, reduceCtorEq, List.cons_append]
      | cons char text =>
          by_cases same : char = expected
          · simp only [after?, same, ↓reduceIte, ih, List.cons_append, List.cons.injEq, true_and]
          · simp only [after?, same, ↓reduceIte, reduceCtorEq, List.cons_append, List.cons.injEq,
              false_and]

/-- A symbol is not read off a text that begins with another character than it does. -/
theorem readSymbol_eq_none {symbol : String} {first : Char} {word text : List Char}
    (written : symbol.toList = first :: word) (different : ∀ char ∈ text.head?, char ≠ first) :
    readSymbol symbol text = none := by
  rw [readSymbol, written]
  cases text with
  | nil => rfl
  | cons char text => rw [after?, if_neg (different char rfl)]

theorem readOneOf_eq_none {symbol : α → String} {values : List α} {text : List Char}
    (none : ∀ value ∈ values, readSymbol (symbol value) text = none) :
    readOneOf symbol values text = Option.none := by
  induction values with
  | nil => rfl
  | cons value values ih =>
      rw [readOneOf, none value List.mem_cons_self]
      exact ih fun other member => none other (List.mem_cons_of_mem value member)

theorem readSymbol_of_readOneOf {symbol : α → String} {values : List α} {value : α}
    {text rest : List Char} (read : readOneOf symbol values text = some (value, rest)) :
    value ∈ values ∧ readSymbol (symbol value) text = some rest := by
  induction values with
  | nil => cases read
  | cons first values ih =>
      rw [readOneOf] at read
      split at read
      · rename_i symbolRead
        cases read
        exact ⟨List.mem_cons_self, symbolRead⟩
      · obtain ⟨member, symbolRead⟩ := ih read
        exact ⟨List.mem_cons_of_mem first member, symbolRead⟩

/-- A row of characters of one kind ends with the text or before a character of another kind. -/
theorem span_append {kind : Char → Bool} {row rest : List Char} (inside : ∀ char ∈ row, kind char)
    (outside : ∀ char ∈ rest.head?, kind char = false) :
    (row ++ rest).span kind = (row, rest) := by
  rw [List.span_eq_takeWhile_dropWhile, List.takeWhile_append_of_pos inside,
    List.dropWhile_append_of_pos inside]
  cases rest with
  | nil => rw [List.takeWhile_nil, List.dropWhile_nil, List.append_nil]
  | cons char rest =>
      have other := outside char rfl
      rw [List.takeWhile_cons_of_neg (ne_true_of_eq_false other),
        List.dropWhile_cons_of_neg (ne_true_of_eq_false other), List.append_nil]

section Span

variable (kind : Char → Bool) (text : List Char)

theorem append_span : (text.span kind).1 ++ (text.span kind).2 = text := by
  rw [List.span_eq_takeWhile_dropWhile]
  exact List.takeWhile_append_dropWhile

theorem of_mem_span : ∀ char ∈ (text.span kind).1, kind char = true := by
  rw [List.span_eq_takeWhile_dropWhile]
  exact List.all_eq_true.mp List.all_takeWhile

theorem of_mem_head?_span : ∀ char ∈ (text.span kind).2.head?, kind char = false := by
  rw [List.span_eq_takeWhile_dropWhile]
  induction text with
  | nil => exact fun _ member => nomatch member
  | cons char text ih =>
      by_cases same : kind char
      · rwa [List.dropWhile_cons_of_pos same]
      · rw [List.dropWhile_cons_of_neg same]
        exact forall_mem_head?_cons (Bool.eq_false_iff.mpr same)

end Span

/-- What is read as often as it goes is read somewhere. -/
theorem exists_read_of_mem_many {read : Reader α} {text : List Char} {value : α}
    (member : value ∈ (many read text).1) : ∃ here rest, read here = some (value, rest) := by
  have bounded : ∀ limit text, value ∈ (repeated read limit text).1 →
      ∃ here rest, read here = some (value, rest) := by
    intro limit
    induction limit with
    | zero => exact fun _ => nofun
    | succ limit ih =>
        intro text member
        cases first : read text with
        | none =>
            rw [repeated, first] at member
            cases member
        | some taken =>
            rw [repeated, first] at member
            rcases List.mem_cons.mp member with rfl | later
            · exact ⟨text, _, first⟩
            · exact ih taken.2 later
  exact bounded text.length text member

/-- What one reading keeps between a text and what is left of it, all of them keep. -/
theorem relates_many {read : Reader α} {relates : List Char → List Char → Prop}
    (refl : ∀ text, relates text text)
    (trans : ∀ {text middle rest}, relates text middle → relates middle rest → relates text rest)
    (each : ∀ text value rest, read text = some (value, rest) → relates text rest)
    (text : List Char) : relates text (many read text).2 := by
  have bounded : ∀ limit text, relates text (repeated read limit text).2 := by
    intro limit
    induction limit with
    | zero => exact refl
    | succ limit ih =>
        intro text
        cases first : read text with
        | none =>
            rw [repeated, first]
            exact refl text
        | some taken =>
            rw [repeated, first]
            exact trans (each _ _ _ first) (ih taken.2)
  exact bounded text.length text

/-- A reader gives these values one behind the other, and then reaches a text that it fails on. It
takes a character at least each time. -/
inductive Repeats (read : Reader α) : List Char → List α → List Char → Prop
  | stop {text : List Char} (fails : read text = none) : Repeats read text [] text
  | next {text rest last : List Char} {value : α} {values : List α}
      (reads : read text = some (value, rest)) (shorter : rest.length < text.length)
      (onward : Repeats read rest values last) : Repeats read text (value :: values) last

namespace Repeats

variable {read : Reader α} {text last : List Char} {values : List α}

/-- A bound that is not below the length of the text does not stop a reader. -/
theorem repeated_eq (repeats : Repeats read text values last) {limit : Nat}
    (enough : text.length ≤ limit) : repeated read limit text = (values, last) := by
  induction repeats generalizing limit with
  | stop fails =>
      cases limit with
      | zero => rfl
      | succ limit => rw [repeated, fails]
  | next reads shorter onward ih =>
      cases limit with
      | zero => omega
      | succ limit =>
          have bound := ih (Nat.le_of_lt_succ (Nat.lt_of_lt_of_le shorter enough))
          simp only [repeated, reads, bound]

theorem many_eq (repeats : Repeats read text values last) : many read text = (values, last) :=
  repeats.repeated_eq (Nat.le_refl _)

theorem fails (repeats : Repeats read text values last) : read last = none := by
  induction repeats with
  | stop fails => exact fails
  | next _ _ _ ih => exact ih

/-- A reader that takes a character at least each time is applied as often as it goes. -/
theorem of_many (shorter : ∀ text value rest, read text = some (value, rest) →
    rest.length < text.length) (text : List Char) :
    Repeats read text (many read text).1 (many read text).2 := by
  have bounded : ∀ limit text, text.length ≤ limit →
      Repeats read text (repeated read limit text).1 (repeated read limit text).2 := by
    intro limit
    induction limit with
    | zero =>
        intro text empty
        refine .stop ?_
        cases first : read text with
        | none => rfl
        | some taken => exact absurd (shorter _ _ _ first) (by omega)
    | succ limit ih =>
        intro text enough
        cases first : read text with
        | none =>
            rw [repeated, first]
            exact .stop first
        | some taken =>
            have less := shorter _ _ _ first
            rw [repeated, first]
            exact .next first less (ih taken.2 (by omega))
  exact bounded text.length text (Nat.le_refl _)

end Repeats

/-- What is read first is the first that is read as often as it goes. -/
theorem exists_many_eq_cons {read : Reader α} {char : Char} {text rest : List Char} {value : α}
    (reads : read (char :: text) = some (value, rest)) :
    ∃ values, (many read (char :: text)).1 = value :: values := by
  rw [many, List.length_cons, repeated, reads]
  exact ⟨_, rfl⟩

/-- A reader that takes one character off goes on with the rest of the text. -/
theorem many_cons {read : Reader α} {char : Char} {text : List Char} {value : α}
    (reads : read (char :: text) = some (value, text)) :
    many read (char :: text) = (value :: (many read text).1, (many read text).2) := by
  rw [many, List.length_cons, repeated, reads]
  rfl

end XmlRecords
