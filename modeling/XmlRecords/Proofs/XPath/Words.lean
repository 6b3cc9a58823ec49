import Mathlib.Data.List.DropRight
import XmlRecords.Proofs.Binary64.Whole
import XmlRecords.Proofs.Text.Reading
import XmlRecords.Proofs.XPath.Printing

/-! # Words of XPath expressions and where they end

The characters of names are neither white space nor punctuation, and a name does not begin with a
digit. So a word that is followed by another kind of character is read up to there.
-/

namespace XmlRecords

namespace Text

/-- No character lies in both sets. -/
def Ranges.areDisjoint (ranges others : Ranges) : Bool :=
  ranges.all fun range =>
    others.all fun other => decide (range.2 < other.1) || decide (other.2 < range.1)

/-- A character of one of two disjoint sets is not in the other. -/
theorem Ranges.contains_eq_false {ranges others : Ranges} {char : Char}
    (disjoint : Ranges.areDisjoint ranges others) (inside : Ranges.contains ranges char) :
    Ranges.contains others char = false := by
  obtain ⟨range, member, within⟩ := List.any_eq_true.mp inside
  refine List.any_eq_false.mpr fun other present both => ?_
  have apart := List.all_eq_true.mp (List.all_eq_true.mp disjoint range member) other present
  simp only [Bool.and_eq_true, Bool.or_eq_true, decide_eq_true_eq] at within both apart
  omega

/-- What holds of the first 128 characters holds of a character in ASCII. -/
theorem of_ascii (property : Char → Prop) (first : ∀ code < 128, property (Char.ofNat code))
    {char : Char} (ascii : char.toNat < 128) : property char := by
  have here := first char.toNat ascii
  rwa [Char.ofNat_toNat] at here

end Text

namespace XPath

section Characters

variable {char : Char}

/-- White space does not belong to names. In ASCII the characters are tried, and beyond it the
tables of blanks, letters and numbers have no character in common. -/
theorem isNameChar_of_isBlank (blank : Text.isBlank char) : isNameChar char = false := by
  by_cases ascii : char.toNat < 128
  · exact Text.of_ascii (fun char => Text.isBlank char → isNameChar char = false)
      (by decide +kernel) ascii blank
  · have letters : Text.Ranges.areDisjoint Text.blank Text.alphabetic := by decide +kernel
    have numbers : Text.Ranges.areDisjoint Text.blank Text.numeric := by decide +kernel
    have mark : ∀ other : Char, other.toNat < 128 → char ≠ other := fun other small same =>
      ascii (same ▸ small)
    simp only [isNameChar, Text.isAlphabetic, Text.isNumeric, if_neg ascii,
      Text.Ranges.contains_eq_false letters blank, Text.Ranges.contains_eq_false numbers blank,
      mark '_' (by decide), mark '-' (by decide), mark '.' (by decide), decide_false, Bool.or_false]

/-- Nor is a character of names white space. -/
theorem isBlank_of_isNameChar (named : isNameChar char) : Text.isBlank char = false := by
  cases blank : Text.isBlank char with
  | false => rfl
  | true => exact absurd ((isNameChar_of_isBlank blank).symm.trans named) Bool.false_ne_true

theorem isBlank_of_isSpace (space : isSpace char) : Text.isBlank char := by
  simp only [isSpace, Bool.or_eq_true, decide_eq_true_eq] at space
  obtain ((rfl | rfl) | rfl) | rfl := space <;> decide

/-- All characters that names begin with can stand inside of names too. -/
theorem isNameChar_of_isNameStart (start : isNameStart char) : isNameChar char := by
  simp only [isNameStart, Bool.or_eq_true] at start
  simp only [isNameChar, Bool.or_eq_true]
  tauto

theorem toNat_lt_of_isDigit (digit : char.isDigit) : char.toNat < 128 := by
  simp only [Char.isDigit, Bool.and_eq_true, decide_eq_true_eq] at digit
  exact Nat.lt_of_le_of_lt digit.2 (by decide)

/-- Digits can stand inside a name, but not at its beginning. -/
theorem isNameChar_of_isDigit (digit : char.isDigit) : isNameChar char := by
  simp only [isNameChar, Text.isNumeric, if_pos (toNat_lt_of_isDigit digit), digit, Bool.or_true,
    Bool.true_or]

/-- So a number is never read as a name. -/
theorem isNameStart_of_isDigit (digit : char.isDigit) : isNameStart char = false :=
  Text.of_ascii (fun char => char.isDigit → isNameStart char = false) (by decide +kernel)
    (toNat_lt_of_isDigit digit) digit

/-- The punctuation of expressions. -/
def punctuation : List Char :=
  [' ', '\'', '"', '(', ')', '*', ',', '/', ':', '@', '[', ']']

/-- Punctuation ends a name. -/
theorem isNameChar_of_mem_punctuation (mark : char ∈ punctuation) : isNameChar char = false := by
  have apart : ∀ char ∈ punctuation, isNameChar char = false :=
    forall_mem_of_all (by decide +kernel)
  exact apart char mark

/-- The characters of expressions that no name begins with. -/
def marks : List Char :=
  '-' :: '.' :: punctuation

/-- Nor does a name begin with a hyphen or a point, although both can stand inside it. -/
theorem isNameStart_of_mem_marks (mark : char ∈ marks) : isNameStart char = false := by
  have apart : ∀ char ∈ marks, isNameStart char = false :=
    forall_mem_of_all (by decide +kernel)
  exact apart char mark

theorem ne_of_isNameStart {mark : Char} (start : isNameStart char)
    (excluded : mark ∈ marks) : char ≠ mark := by
  intro same
  have other := isNameStart_of_mem_marks excluded
  exact Bool.false_ne_true (other.symm.trans (same ▸ start))

end Characters

section Space

/-- White space is only skipped in front. -/
theorem skipSpace_cons {char : Char} {text : List Char} (solid : Text.isBlank char = false) :
    skipSpace (char :: text) = char :: text := by
  refine List.dropWhile_cons_of_neg fun space => ?_
  exact Bool.false_ne_true (solid.symm.trans (isBlank_of_isSpace space))

@[simp]
theorem skipSpace_skipSpace (text : List Char) : skipSpace (skipSpace text) = skipSpace text :=
  List.dropWhile_idempotent isSpace text

theorem length_skipSpace_le (text : List Char) : (skipSpace text).length ≤ text.length :=
  (List.dropWhile_sublist isSpace).length_le

/-- A symbol is read behind white space, however much there is. -/
theorem readSpaced_congr {symbol : String} {text other : List Char}
    (same : skipSpace text = skipSpace other) :
    readSpaced symbol text = readSpaced symbol other := by
  rw [readSpaced, same, readSpaced]

/-- Nor is it behind white space, if another character comes there. -/
theorem readSpaced_eq_none {symbol : String} {first : Char} {word text : List Char}
    (written : symbol.toList = first :: word)
    (different : ∀ char ∈ (skipSpace text).head?, char ≠ first) :
    readSpaced symbol text = none := by
  rw [readSpaced, readSymbol_eq_none written different]
  rfl

/-- A symbol of one character is read with the white space behind it. -/
theorem readSpaced_cons {symbol : String} {char : Char} {text : List Char}
    (written : symbol.toList = [char]) (solid : Text.isBlank char = false) :
    readSpaced symbol (char :: text) = some (skipSpace text) := by
  rw [readSpaced, skipSpace_cons solid, readSymbol, written, after?, if_pos rfl, after?]
  rfl

/-- The text begins with something else than white space. -/
def Opens (text : List Char) : Prop :=
  ∃ char others, text = char :: others ∧ Text.isBlank char = false

theorem Opens.append {text : List Char} (opens : Opens text) (rest : List Char) :
    Opens (text ++ rest) := by
  obtain ⟨char, others, rfl, solid⟩ := opens
  exact ⟨char, others ++ rest, rfl, solid⟩

theorem Opens.skipSpace_eq {text : List Char} (opens : Opens text) : skipSpace text = text := by
  obtain ⟨char, others, rfl, solid⟩ := opens
  exact skipSpace_cons solid

/-- A text from which white space in front has been taken, or not. -/
def Skips (text rest : List Char) : Prop :=
  rest = text ∨ rest = skipSpace text

/-- Whether white space has been taken before makes no difference to a reader that skips it. -/
theorem Skips.skipSpace_eq {text rest : List Char} (skips : Skips text rest) :
    skipSpace rest = skipSpace text := by
  rcases skips with rfl | rfl
  · rfl
  · exact skipSpace_skipSpace text

theorem Skips.length_le {text rest : List Char} (skips : Skips text rest) :
    rest.length ≤ text.length := by
  rcases skips with rfl | rfl
  · exact Nat.le_refl _
  · exact length_skipSpace_le text

/-- In front of another character there is no white space to take. -/
theorem Skips.eq_of_cons {char : Char} {text rest : List Char} (skips : Skips (char :: text) rest)
    (solid : Text.isBlank char = false) : rest = char :: text := by
  rcases skips with rfl | rfl
  · rfl
  · exact skipSpace_cons solid

end Space

section Names

/-- The text begins with a character that names begin with. -/
def StartsName (text : List Char) : Prop :=
  ∃ first others, text = first :: others ∧ isNameStart first

namespace StartsName

variable {text : List Char}

theorem append (starts : StartsName text) (rest : List Char) : StartsName (text ++ rest) := by
  obtain ⟨first, others, rfl, start⟩ := starts
  exact ⟨first, others ++ rest, rfl, start⟩

/-- A name is no white space. -/
theorem opens (starts : StartsName text) : Opens text := by
  obtain ⟨first, others, rfl, start⟩ := starts
  exact ⟨first, others, rfl, isBlank_of_isNameChar (isNameChar_of_isNameStart start)⟩

theorem of_mem_head? (starts : StartsName text) : ∀ char ∈ text.head?, isNameStart char := by
  obtain ⟨first, others, rfl, start⟩ := starts
  rintro _ ⟨⟩
  exact start

/-- Readers of symbols fail on a name, as it does not begin with punctuation. -/
theorem ne_of_mem_head? (starts : StartsName text) {mark : Char}
    (excluded : mark ∈ marks) : ∀ char ∈ text.head?, char ≠ mark := by
  intro char member
  exact ne_of_isNameStart (starts.of_mem_head? char member) excluded

end StartsName

theorem startsName_of_isName {name : List Char} (named : isName name) : StartsName name := by
  cases name with
  | nil => cases named
  | cons first others => exact ⟨first, others, rfl, (Bool.and_eq_true_iff.mp named).1⟩

/-- A name consists of such characters, its first one included. -/
theorem isNameChar_of_isName {name : List Char} (named : isName name) :
    ∀ char ∈ name, isNameChar char := by
  cases name with
  | nil => cases named
  | cons first others =>
      obtain ⟨start, inside⟩ := Bool.and_eq_true_iff.mp named
      rintro char (_ | ⟨_, member⟩)
      · exact isNameChar_of_isNameStart start
      · exact List.all_eq_true.mp inside char member

/-- A name is read up to a character that does not belong to names. -/
theorem readName_append {name rest : List Char} (named : isName name)
    (outside : ∀ char ∈ rest.head?, isNameChar char = false) :
    readName (name ++ rest) = some (name, rest) := by
  have row := span_append (isNameChar_of_isName named) outside
  obtain ⟨first, others, rfl, start⟩ := startsName_of_isName named
  rw [List.cons_append] at row ⊢
  rw [readName, if_pos start, row]

theorem readName_cons_of_not {char : Char} {text : List Char} (other : isNameStart char = false) :
    readName (char :: text) = none := by
  rw [readName, if_neg (ne_true_of_eq_false other)]

/-- No name goes on with the text, not even as the prefix of another one. -/
def EndsName (rest : List Char) : Prop :=
  ∀ char ∈ rest.head?, isNameChar char = false ∧ char ≠ ':'

theorem EndsName.isNameChar_eq {rest : List Char} (ends : EndsName rest) :
    ∀ char ∈ rest.head?, isNameChar char = false :=
  fun char member => (ends char member).1

/-- Without a colon there is no second part of a name. -/
theorem EndsName.readLocalPart_eq {rest : List Char} (ends : EndsName rest) :
    readLocalPart rest = none := by
  cases rest with
  | nil => rfl
  | cons char rest =>
      have other := (ends char rfl).2
      unfold readLocalPart
      split
      · rename_i colon
        exact absurd (List.cons.inj colon).1 other
      · rfl

/-- A name without a prefix is its own local name. -/
theorem readLocalName_append {name rest : List Char} (named : isName name) (ends : EndsName rest) :
    readLocalName (name ++ rest) = some (name, rest) := by
  have plain := readName_append named ends.isNameChar_eq
  simp only [readLocalName, plain, ends.readLocalPart_eq]

/-- The same name is its own full name. -/
theorem readFullName_name {name rest : List Char} (named : isName name) (ends : EndsName rest) :
    readFullName (name ++ rest) = some (name, rest) := by
  have plain := readName_append named ends.isNameChar_eq
  simp only [readFullName, plain, ends.readLocalPart_eq]

section Prefixes

variable {first second rest : List Char}

/-- A prefix is read up to the colon behind it. -/
theorem readName_prefix (named : isName first) (rest : List Char) :
    readName (first ++ ':' :: rest) = some (first, ':' :: rest) :=
  readName_append named (forall_mem_head?_cons (isNameChar_of_mem_punctuation (by decide)))

/-- The local name comes behind the prefix and the colon. -/
theorem readLocalName_prefixed (firstNamed : isName first) (secondNamed : isName second)
    (ends : EndsName rest) :
    readLocalName (first ++ ':' :: (second ++ rest)) = some (second, rest) := by
  have behind := readName_append secondNamed ends.isNameChar_eq
  simp only [readLocalName, readName_prefix firstNamed, readLocalPart, behind]

/-- The full name keeps the prefix and the colon. -/
theorem readFullName_prefixed (firstNamed : isName first) (secondNamed : isName second)
    (ends : EndsName rest) :
    readFullName (first ++ ':' :: (second ++ rest)) = some (first ++ ':' :: second, rest) := by
  have behind := readName_append secondNamed ends.isNameChar_eq
  simp only [readFullName, readName_prefix firstNamed, readLocalPart, behind]

end Prefixes

/-- A function has a name, with a prefix or without one, that is not that of a node type. The text
is split at its first colon. -/
theorem isFunctionName_cases {name : String} (named : isFunctionName name) :
    isNodeType name = false ∧
      (isName name.toList ∨
        ∃ first second, name.toList = first ++ ':' :: second ∧ isName first ∧ isName second) := by
  unfold isFunctionName at named
  rw [Bool.and_eq_true_iff, Bool.not_eq_true', List.span_eq_takeWhile_dropWhile] at named
  obtain ⟨ordinary, named⟩ := named
  refine ⟨ordinary, ?_⟩
  have parts := List.takeWhile_append_dropWhile (p := (· != ':')) (l := name.toList)
  have stop := List.head?_dropWhile_not (· != ':') name.toList
  generalize name.toList.takeWhile (· != ':') = first at parts named
  generalize name.toList.dropWhile (· != ':') = behind at parts named stop
  cases behind with
  | nil =>
      rw [List.append_nil] at parts
      exact .inl (parts ▸ named)
  | cons colon second =>
      obtain ⟨firstNamed, secondNamed⟩ := Bool.and_eq_true_iff.mp named
      simp only [List.head?_cons, bne_eq_false_iff_eq] at stop
      exact .inr ⟨first, second, stop ▸ parts.symm, firstNamed, secondNamed⟩

/-- There is no colon in a name, so the first one in a text with a prefix is that behind the prefix.
-/
theorem ne_colon_of_isName {name : List Char} (named : isName name) :
    ∀ char ∈ name, (char != ':') = true := by
  intro char member
  refine bne_iff_ne.mpr fun colon => ?_
  have other : isNameChar char = false := colon ▸ isNameChar_of_mem_punctuation (by decide)
  exact Bool.false_ne_true (other.symm.trans (isNameChar_of_isName named char member))

/-- Every such name is one that a function can have. -/
theorem isFunctionName_of_cases {name : String} (ordinary : isNodeType name = false)
    (named : isName name.toList ∨
      ∃ first second, name.toList = first ++ ':' :: second ∧ isName first ∧ isName second) :
    isFunctionName name := by
  unfold isFunctionName
  rw [ordinary, Bool.not_false, Bool.true_and]
  rcases named with whole | ⟨first, second, parts, firstNamed, secondNamed⟩
  · have row : (name.toList ++ []).span (· != ':') = (name.toList, []) :=
      span_append (ne_colon_of_isName whole) nofun
    rw [List.append_nil] at row
    rw [row]
    exact whole
  · have row : name.toList.span (· != ':') = (first, ':' :: second) := by
      rw [parts]
      exact span_append (ne_colon_of_isName firstNamed) (forall_mem_head?_cons rfl)
    rw [row]
    exact Bool.and_eq_true_iff.mpr ⟨firstNamed, secondNamed⟩

theorem startsName_of_isFunctionName {name : String} (named : isFunctionName name) :
    StartsName name.toList := by
  obtain ⟨_, whole | ⟨before, second, parts, beforeNamed, _⟩⟩ := isFunctionName_cases named
  · exact startsName_of_isName whole
  · rw [parts]
    exact (startsName_of_isName beforeNamed).append _

/-- Where no name goes on, the whole name of a function is read. -/
theorem readFullName_append {name : String} {rest : List Char} (named : isFunctionName name)
    (ends : EndsName rest) : readFullName (name.toList ++ rest) = some (name.toList, rest) := by
  obtain ⟨_, whole | ⟨first, second, parts, firstNamed, secondNamed⟩⟩ := isFunctionName_cases named
  · exact readFullName_name whole ends
  · rw [parts, List.append_assoc, List.cons_append]
    exact readFullName_prefixed firstNamed secondNamed ends

end Names

section Literals

/-- A number begins with a digit or with a point. -/
theorem readNumber_eq_none {text : List Char}
    (other : ∀ char ∈ text.head?, char.isDigit = false ∧ char ≠ '.') : readNumber text = none := by
  have bare : text.span Char.isDigit = ([], text) :=
    span_append (fun _ member => absurd member List.not_mem_nil) fun char member =>
      (other char member).1
  unfold readNumber
  rw [bare]
  split
  · rename_i point
    exact absurd rfl (other '.' (by rw [show text = _ from congrArg Prod.snd point]; rfl)).2
  · rfl
  · rename_i first parts
    exact absurd (congrArg Prod.fst parts).symm first
  · rename_i first _ parts
    exact absurd (congrArg Prod.fst parts).symm first

/-- A natural number below `2 ^ 53` is read as the double that it is. -/
theorem readNumber_digits {value : Float} {number : Nat} {rest : List Char}
    (natural : Binary64.toNat? value = some number) (bound : number < 2 ^ 53)
    (outside : ∀ char ∈ rest.head?, char.isDigit = false ∧ char ≠ '.') :
    readNumber (Numeral.digits number ++ rest) = some (value, rest) := by
  have row : (Numeral.digits number ++ rest).span Char.isDigit = (Numeral.digits number, rest) :=
    span_append (fun char member => Nat.isDigit_of_mem_toDigits (by decide) (by decide) member)
      fun char member => (outside char member).1
  have denoted : numberValue (Numeral.digits number) [] = value := by
    unfold numberValue
    rw [List.append_nil, Numeral.value_digits]
    exact (Binary64.ofDecimal_zero bound).trans (Binary64.ofNat_of_toNat? natural)
  have present : Numeral.digits number ≠ [] := Nat.toDigits_ne_nil
  unfold readNumber
  rw [row]
  split
  · rename_i parts
    exact absurd (congrArg Prod.fst parts) present
  · rename_i parts
    exact absurd (congrArg Prod.fst parts) present
  · rename_i parts
    have point := outside '.' (by rw [show rest = _ from congrArg Prod.snd parts]; rfl)
    exact absurd rfl point.2
  · rename_i parts
    cases parts
    rw [denoted]

/-- A literal begins with a quote. -/
theorem readLiteral_eq_none {text : List Char} (other : ∀ char ∈ text.head?, char ∉ ['\'', '"']) :
    readLiteral text = none := by
  unfold readLiteral
  split
  · exact absurd (by decide) (other '\'' rfl)
  · exact absurd (by decide) (other '"' rfl)
  · rfl

/-- A text without the quote is read up to it. -/
theorem readQuoted_append {quote : Char} {content rest : List Char}
    (absent : quote ∉ content) :
    readQuoted quote (content ++ quote :: rest) = some (String.ofList content, rest) := by
  have row : (content ++ quote :: rest).span (· != quote) = (content, quote :: rest) := by
    refine span_append (fun char member => bne_iff_ne.mpr ?_) ?_
    · rintro rfl
      exact absent member
    · rintro _ ⟨⟩
      exact bne_self_eq_false quote
  rw [readQuoted, row]

/-- A literal is read back if it is put between quotes that are not in it. -/
theorem readLiteral_quoted {content rest : List Char}
    (free : ¬('\'' ∈ content ∧ '"' ∈ content)) :
    readLiteral (quoted content ++ rest) = some (String.ofList content, rest) := by
  simp only [quoted, quoteOf, List.cons_append, List.append_assoc, List.nil_append]
  by_cases single : '\'' ∈ content
  · rw [if_pos single]
    exact readQuoted_append fun double => free ⟨single, double⟩
  · rw [if_neg single]
    exact readQuoted_append single

end Literals

section Tests

/-- The name of an axis is read up to the colons behind it. -/
theorem readAxis_append (axis : Axis) (rest : List Char) :
    readAxis (axis.name.toList ++ "::".toList ++ rest) = some (axis, rest) := by
  cases axis <;> rfl

/-- The names of axes are names of nodes too, so that an axis is told by the colons behind it. -/
theorem isName_axis (axis : Axis) : isName axis.name.toList := by
  cases axis <;> decide +kernel

/-- A name is no axis, whatever axis it begins with, if no two colons come behind it. -/
theorem readAxis_name_eq_none {name rest : List Char} (named : isName name)
    (outside : ∀ char ∈ rest.head?, isNameChar char = false)
    (noColons : readSymbol "::" rest = none) : readAxis (name ++ rest) = none := by
  cases read : readAxis (name ++ rest) with
  | none => rfl
  | some taken =>
      simp only [readAxis, Option.bind_eq_bind, Option.bind_eq_some_iff] at read
      obtain ⟨⟨axis, middle⟩, one, left, colons, -⟩ := read
      have whole := after?_eq_some_iff.mp (readSymbol_of_readOneOf one).2
      have behind : middle = "::".toList ++ left := after?_eq_some_iff.mp colons
      -- The name of the axis is the longest row of such characters, as the name itself is.
      have row := span_append (isNameChar_of_isName named) outside
      have axisOutside : ∀ char ∈ middle.head?, isNameChar char = false := by
        rw [behind]
        exact forall_mem_head?_cons (isNameChar_of_mem_punctuation (by decide))
      have axisRow := span_append (isNameChar_of_isName (isName_axis axis)) axisOutside
      rw [whole, axisRow] at row
      obtain rfl : middle = rest := congrArg Prod.snd row
      exact absurd (noColons.symm.trans colons) (Option.some_ne_none left).symm

theorem isName_nodeType : ∀ type ∈ ["text", "comment", "node"], isName type.toList := by
  decide +kernel

/-- A name is no node type without parentheses behind it, even if it begins with the name of one:
either the rest of the name comes before them, or it is that very name and no parentheses follow. -/
theorem readNodeType_name {type : String} {name rest : List Char} (typeNamed : isName type.toList)
    (named : isName name) (outside : ∀ char ∈ rest.head?, isNameChar char = false)
    (bare : readSpaced "()" rest = none) : readNodeType type (name ++ rest) = none := by
  have typeInside := isNameChar_of_isName typeNamed
  have inside := isNameChar_of_isName named
  unfold readNodeType
  cases read : readSymbol type (name ++ rest) with
  | none => rfl
  | some behind =>
      refine Eq.trans (Option.bind_some _ _) ?_
      rcases List.append_eq_append_iff.mp (after?_eq_some_iff.mp read) with
        ⟨more, typeParts, restParts⟩ | ⟨more, nameParts, behindParts⟩
      · cases more with
        | nil => rwa [restParts] at bare
        | cons char more =>
            have belongs := typeInside char (by rw [typeParts]; simp)
            have ended := outside char (by rw [restParts]; rfl)
            exact absurd (ended.symm.trans belongs) Bool.false_ne_true
      · cases more with
        | nil => rwa [behindParts]
        | cons char more =>
            have belongs := inside char (by rw [nameParts]; simp)
            rw [behindParts, List.cons_append]
            refine readSpaced_eq_none rfl ?_
            rw [skipSpace_cons (isBlank_of_isNameChar belongs)]
            rintro _ ⟨⟩ rfl
            have mark := isNameChar_of_mem_punctuation (by decide : '(' ∈ punctuation)
            exact absurd (mark.symm.trans belongs) Bool.false_ne_true

/-- A node test is read up to where no name and no parentheses go on. -/
theorem readNodeTest_written {test : NodeTest} {rest : List Char} (printable : test.isPrintable)
    (ends : EndsName rest) (bare : readSpaced "()" rest = none) :
    ∃ left, readNodeTest (test.written ++ rest) = some (test, left) ∧ Skips rest left := by
  cases test with
  | any => exact ⟨rest, rfl, .inl rfl⟩
  | text => exact ⟨skipSpace rest, rfl, .inr rfl⟩
  | comment =>
      have noText : readNodeType "text" (NodeTest.comment.written ++ rest) = none := rfl
      refine ⟨skipSpace rest, ?_, .inr rfl⟩
      unfold readNodeTest
      rw [noText]
      rfl
  | node =>
      have noText : readNodeType "text" (NodeTest.node.written ++ rest) = none := rfl
      have noComment : readNodeType "comment" (NodeTest.node.written ++ rest) = none := rfl
      refine ⟨skipSpace rest, ?_, .inr rfl⟩
      unfold readNodeTest
      rw [noText, noComment]
      rfl
  | name word =>
      have noStar : readSymbol "*" (word.toList ++ rest) = none := by
        have starts := (startsName_of_isName printable).append rest
        exact readSymbol_eq_none rfl (starts.ne_of_mem_head? (by decide))
      have noType : ∀ type ∈ ["text", "comment", "node"],
          readNodeType type (word.toList ++ rest) = none := fun type member =>
        readNodeType_name (isName_nodeType type member) printable ends.isNameChar_eq bare
      have whole : readLocalName (word.toList ++ rest) = some (word.toList, rest) :=
        readLocalName_append printable ends
      refine ⟨rest, ?_, .inl rfl⟩
      change readNodeTest (word.toList ++ rest) = _
      unfold readNodeTest
      rw [noStar, noType "text" (by decide), noType "comment" (by decide),
        noType "node" (by decide), whole]
      change some (NodeTest.name (String.ofList word.toList), rest) = _
      rw [String.ofList_toList]

end Tests

end XPath

end XmlRecords
