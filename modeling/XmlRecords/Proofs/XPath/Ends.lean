import XmlRecords.Proofs.XPath.Words

/-! # Where expressions end

What can stand behind an expression that is read by itself or inside brackets, and what cannot be
read there: no name goes on, and no call, step or test begins.
-/

namespace XmlRecords

namespace XPath

/-- The characters that end an expression inside brackets. -/
def closers : List Char :=
  [')', ']', ',']

theorem isBlank_of_mem_closers {char : Char} (closes : char ∈ closers) :
    Text.isBlank char = false := by
  have solid : ∀ char ∈ closers, Text.isBlank char = false := forall_mem_of_all (by decide)
  exact solid char closes

/-- What can stand behind an operand of a level: nothing, the end of the brackets around it, or an
operator that binds looser. -/
inductive Ends (level : Nat) : List Char → Prop
  | nothing : Ends level []
  | closed {char : Char} {rest : List Char} (closes : char ∈ closers) : Ends level (char :: rest)
  | operator {operator : Operator} {rest : List Char} (looser : operator.level < level) :
      Ends level (' ' :: operator.symbol.toList ++ ' ' :: rest)

/-- The characters that a closing symbol or an operator begins with. -/
def enders : List Char :=
  closers ++ ['o', 'a', '=', '!', '<', '>', '+', '-', '|']

namespace Ends

variable {level : Nat} {rest : List Char}

/-- An operator that binds looser than a level binds looser than all above it. -/
theorem mono {higher : Nat} (ends : Ends level rest) (above : level ≤ higher) :
    Ends higher rest := by
  cases ends with
  | nothing => exact .nothing
  | closed closes => exact .closed closes
  | operator looser => exact .operator (looser.trans_le above)

/-- Operators are written with a space in front. -/
theorem mem_of_head? (ends : Ends level rest) : ∀ char ∈ rest.head?, char ∈ ' ' :: closers := by
  cases ends with
  | nothing => exact fun _ member => nomatch member
  | closed closes => exact forall_mem_head?_cons (List.mem_cons_of_mem _ closes)
  | operator looser => exact forall_mem_head?_cons List.mem_cons_self

/-- Behind the space the operator itself comes. -/
theorem mem_of_head?_skipSpace (ends : Ends level rest) :
    ∀ char ∈ (skipSpace rest).head?, char ∈ enders := by
  cases ends with
  | nothing => exact fun _ member => nomatch member
  | closed closes =>
      rw [skipSpace_cons (isBlank_of_mem_closers closes)]
      exact forall_mem_head?_cons (List.mem_append_left _ closes)
  | @operator operator rest looser =>
      cases operator with
      | compare comparison => cases comparison <;> exact forall_mem_head?_cons (by decide)
      | _ => exact forall_mem_head?_cons (by decide)

/-- Neither a space nor a closing symbol belongs to a name. -/
theorem endsName (ends : Ends level rest) : EndsName rest := by
  have outside : ∀ char ∈ ' ' :: closers, char ∈ punctuation ∧ char ≠ ':' :=
    forall_mem_of_all (by decide)
  intro char member
  obtain ⟨mark, noColon⟩ := outside char (ends.mem_of_head? char member)
  exact ⟨isNameChar_of_mem_punctuation mark, noColon⟩

/-- Only a closing symbol can be read behind an operand. -/
theorem readSpaced_eq {symbol : String} {first : Char} {word : List Char} (ends : Ends level rest)
    (written : symbol.toList = first :: word)
    (other : first ∉ enders) : readSpaced symbol rest = none := by
  refine readSpaced_eq_none written fun char member same => ?_
  exact other (same ▸ ends.mem_of_head?_skipSpace char member)

end Ends

section Failing

variable (nested : Reader Expression) {text : List Char}

theorem readFullName_eq_none (other : ∀ char ∈ text.head?, isNameStart char = false) :
    readFullName text = none := by
  cases text with
  | nil => rfl
  | cons char text => rw [readFullName, readName_cons_of_not (other char rfl)]

/-- A call begins with a name. -/
theorem readCall_eq_none (other : ∀ char ∈ text.head?, isNameStart char = false) :
    readCall nested text = none := by
  rw [readCall, readFullName_eq_none other]
  rfl

/-- A name that no parenthesis comes behind is no call. -/
theorem readCall_name_eq_none {name rest : List Char}
    (read : readFullName text = some (name, rest)) (bare : readSpaced "(" rest = none) :
    readCall nested text = none := by
  simp only [readCall, read, bare, Option.bind_eq_bind, Option.bind_some, Option.bind_none]

/-- Words of the grammar begin as names do. -/
theorem readSymbol_name_eq_none {word : String} (named : isName word.toList)
    (other : ∀ char ∈ text.head?, isNameStart char = false) : readSymbol word text = none := by
  obtain ⟨first, others, written, start⟩ := startsName_of_isName named
  refine readSymbol_eq_none written fun char member same => ?_
  exact Bool.false_ne_true ((other char member).symm.trans (same ▸ start))

/-- So does an axis. -/
theorem readAxis_eq_none (other : ∀ char ∈ text.head?, isNameStart char = false) :
    readAxis text = none := by
  have noOne : readOneOf Axis.name Axis.all text = none :=
    readOneOf_eq_none fun axis _ => readSymbol_name_eq_none (isName_axis axis) other
  rw [readAxis, noOne]
  rfl

theorem readNodeType_eq_none {type : String} (member : type ∈ ["text", "comment", "node"])
    (other : ∀ char ∈ text.head?, isNameStart char = false) : readNodeType type text = none := by
  rw [readNodeType, readSymbol_name_eq_none (isName_nodeType type member) other]
  rfl

theorem readLocalName_eq_none (other : ∀ char ∈ text.head?, isNameStart char = false) :
    readLocalName text = none := by
  cases text with
  | nil => rfl
  | cons char text => rw [readLocalName, readName_cons_of_not (other char rfl)]

/-- A node test begins with an asterisk or a name. -/
theorem readNodeTest_eq_none (other : ∀ char ∈ text.head?, isNameStart char = false)
    (noStar : ∀ char ∈ text.head?, char ≠ '*') : readNodeTest text = none := by
  have star : readSymbol "*" text = none := readSymbol_eq_none rfl noStar
  rw [readNodeTest, star, readNodeType_eq_none (by decide) other,
    readNodeType_eq_none (by decide) other, readNodeType_eq_none (by decide) other,
    readLocalName_eq_none other]
  rfl

/-- A step begins with a point, an at sign, an asterisk or a name. -/
theorem readStep_eq_none
    (other : ∀ char ∈ text.head?, isNameStart char = false ∧ char ∉ ['.', '@', '*']) :
    readStep nested text = none := by
  have noName : ∀ char ∈ text.head?, isNameStart char = false := fun char member =>
    (other char member).1
  have noMark : ∀ mark ∈ ['.', '@', '*'], ∀ char ∈ text.head?, char ≠ mark := by
    intro mark marked char member same
    exact (other char member).2 (same ▸ marked)
  have noUp : readSymbol ".." text = none := readSymbol_eq_none rfl (noMark '.' (by decide))
  have noHere : readSymbol "." text = none := readSymbol_eq_none rfl (noMark '.' (by decide))
  have noAt : readSymbol "@" text = none := readSymbol_eq_none rfl (noMark '@' (by decide))
  have noTest := readNodeTest_eq_none noName (noMark '*' (by decide))
  have noAxisTest : readAxisTest text = none := by
    rw [readAxisTest, noAt, readAxis_eq_none noName, noTest]
    rfl
  rw [readStep, noUp, noHere, noAxisTest]
  rfl

end Failing

section Nested

variable {nested : Reader Expression}

/-- Inside brackets an expression is read up to where it ends. -/
structure IsNested (nested : Reader Expression) (expression : Expression) : Prop where
  opens : Opens expression.written
  reads : ∀ char rest, char ∈ closers →
    nested (expression.written ++ char :: rest) = some (expression, char :: rest)

/-- An expression between brackets is read with the white space behind them. -/
theorem IsNested.reads_between {expression : Expression} (inside : IsNested nested expression)
    {opening closing : String} {first last : Char} (opened : opening.toList = [first])
    (closed : closing.toList = [last]) (solid : Text.isBlank first = false)
    (closes : last ∈ closers) (rest : List Char) :
    (do let behind ← readSpaced opening (first :: (expression.written ++ last :: rest))
        let (content, rest) ← nested behind
        let rest ← readSpaced closing rest
        return (content, rest)) = some (expression, skipSpace rest) := by
  have content := inside.reads last rest closes
  rw [readSpaced_cons opened solid, (inside.opens.append (last :: rest)).skipSpace_eq]
  simp only [Option.bind_eq_bind, Option.bind_some, content,
    readSpaced_cons closed (isBlank_of_mem_closers closes)]
  rfl

end Nested

end XPath

end XmlRecords
