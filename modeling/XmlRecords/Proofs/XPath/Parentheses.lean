import XmlRecords.Proofs.XPath.Completion
import XmlRecords.Proofs.XPath.RoundTrip

/-! # Expressions in parentheses

An expression that is parsed alone is parsed in parentheses too, and as the same expression, unless
it ends with a number that has digits on both sides of its point, and the text ends with it. The
digits behind the point do not count at the end of a text, and do so in parentheses.
-/

namespace XmlRecords

namespace XPath

section Whole

variable {nested : Reader Expression} {expression : Expression} {text : List Char}

/-- A parenthesis that is closed at the end of the text is an expression of every level. -/
theorem readLevel_whole {level : Nat} (bound : level ≤ 7)
    (read : readTerm nested ('(' :: text) = some (expression, [])) :
    readLevel nested level ('(' :: text) = some (expression, []) := by
  induction bound using Nat.decreasingInduction with
  | of_succ level below ih =>
      by_cases sign : level = 5
      · subst sign
        have noSigns : many readMinus ('(' :: text) = ([], '(' :: text) :=
          (Repeats.stop rfl).many_eq
        change readUnion nested ('(' :: text) = some (expression, []) at ih
        change readNegation nested ('(' :: text) = some (expression, [])
        rw [readNegation, noSigns]
        simp only [ih]
        rfl
      · obtain ⟨operator, rfl⟩ := exists_operator below sign
        rw [readLevel_operator, readChain, ih]
        rfl
  | self => exact read

theorem readTerm_group (opens : skipSpace text = text)
    (read : nested (closed text) = some (expression, closed [])) :
    readTerm nested ('(' :: closed text) = some (expression, []) := by
  have alone : readNumber ('(' :: closed text) = none ∧ readLiteral ('(' :: closed text) = none :=
    readNumber_readLiteral_eq_none (forall_mem_head?_cons (.inr (by decide)))
  have noCall : readCall nested ('(' :: closed text) = none :=
    readCall_eq_none nested (forall_mem_head?_cons (isNameStart_of_mem_marks (by decide)))
  have opening : readSpaced "(" ('(' :: closed text) = some (closed text) := by
    rw [readSpaced_cons rfl (by decide), skipSpace_closed, opens]
  have group : readGroup nested ('(' :: closed text) = some (expression, []) := by
    simp only [readGroup, opening, read, Option.bind_eq_bind, Option.bind_some]
    rfl
  rw [readTerm, skipSpace_cons (by decide), readPrimary, alone.1, alone.2, noCall, group]
  rfl

end Whole

section Ends

variable {text : List Char}

theorem skipSpace_of_trim (trimmed : Text.trim text = text) : skipSpace text = text := by
  cases text with
  | nil => rfl
  | cons char text =>
      cases blank : Text.isBlank char with
      | false => exact skipSpace_cons blank
      | true =>
          have shorter : (Text.trim (char :: text)).length ≤ text.length := by
            rw [Text.trim, Text.trimEnd, Text.trimStart, List.dropWhile_cons_of_pos blank,
              List.length_reverse]
            refine (List.dropWhile_sublist _).length_le.trans ?_
            rw [List.length_reverse]
            exact (List.dropWhile_sublist _).length_le
          rw [trimmed, List.length_cons] at shorter
          omega

theorem toList_parenthesized (source : String) :
    ("(" ++ source ++ ")").toList = '(' :: closed source.toList := by
  simp only [String.toList_append]
  rfl

theorem trim_parenthesized (text : List Char) :
    Text.trim ('(' :: closed text) = '(' :: closed text :=
  trim_eq ⟨'(', closed text, rfl, by decide⟩ ⟨'(' :: text, ')', rfl, by decide⟩

end Ends

namespace Expression

variable {source : String} {expression inside : Expression}

theorem readExpression_of_parse (trimmed : Text.trim source.toList = source.toList)
    (parsed : parse source = .ok expression) :
    readExpression source.toList = some (expression, []) := by
  unfold parse at parsed
  rw [trimmed] at parsed
  dsimp only at parsed
  split at parsed
  · rename_i read
    cases parsed
    exact read
  · cases parsed
  · cases parsed

/-- Parentheses around a text are parsed as what is read in front of the closing one. -/
theorem parse_of_nested (trimmed : Text.trim source.toList = source.toList)
    (read : readNested (source.toList.length + 2) (closed source.toList) =
      some (inside, closed [])) :
    parse ("(" ++ source ++ ")") = .ok inside := by
  have term := readTerm_group (skipSpace_of_trim trimmed) read
  have whole : readExpression ('(' :: closed source.toList) = some (inside, []) := by
    rw [readExpression, List.length_cons, closed, List.length_append]
    exact readLevel_whole (Nat.zero_le 7) term
  unfold parse
  rw [toList_parenthesized, trim_parenthesized]
  simp only [whole]

/-- An expression without white space at its ends is parsed in parentheses if it is parsed alone. If
its last part is a number, and the text ends in a digit, a point and digits, then the digits behind
the point do not count alone, and do so in parentheses. In all other cases the same is parsed. -/
theorem parse_parenthesized (trimmed : Text.trim source.toList = source.toList)
    (parsed : parse source = .ok expression) :
    ∃ inside, parse ("(" ++ source ++ ")") = .ok inside ∧
      (expression.endsInNumber = true ∧ EndsInDecimal source.toList →
        Completes source.toList expression inside) ∧
      (¬(expression.endsInNumber = true ∧ EndsInDecimal source.toList) →
        inside = expression) := by
  have read : readNested (source.toList.length + 1) source.toList = some (expression, []) :=
    readExpression_of_parse trimmed parsed
  -- All of the text has been read, so it closes as many brackets as it opens.
  have balance := (balanced_nested _ _ _ _ read).surplus_eq
  have within : Within (source.toList.length + 1) 0 source.toList := by
    refine ⟨Nat.lt_succ_self _, ?_⟩
    change 0 = surplus source.toList + 0 at balance
    omega
  have agrees := nested_agrees (Nat.le_succ (source.toList.length + 1)) within
  rw [read] at agrees
  generalize before : readNested (source.toList.length + 2) (closed source.toList) = outcome
    at agrees
  cases agrees with
  | same _ _ final =>
      refine ⟨expression, parse_of_nested trimmed before, ?_, fun _ => rfl⟩
      rintro ⟨number, decimal⟩
      exact absurd decimal (final rfl number)
  | @changed _ inside changes =>
      refine ⟨inside, parse_of_nested trimmed before, fun _ => changes, ?_⟩
      exact fun other => absurd changes.ends other

/-- The right operand of this comparison is a number that ends the text. -/
theorem parse_parenthesized_comparison :
    let expression : Expression :=
      .binary (.compare .equal) (.number (numberValue ['1'] [])) (.number (numberValue ['0'] []))
    Text.trim "1 = 0.5".toList = "1 = 0.5".toList ∧ parse "1 = 0.5" = .ok expression ∧
      expression.endsInNumber = true ∧ EndsInDecimal "1 = 0.5".toList ∧
      ∃ inside, parse ("(" ++ "1 = 0.5" ++ ")") = .ok inside ∧
        Completes "1 = 0.5".toList expression inside := by
  intro expression
  have trimmed : Text.trim "1 = 0.5".toList = "1 = 0.5".toList := by decide +kernel
  have parsed : parse "1 = 0.5" = .ok expression := rfl
  have decimal : EndsInDecimal "1 = 0.5".toList :=
    ⟨'0', ['5'], ⟨"1 = ".toList, rfl⟩, rfl, rfl, List.cons_ne_nil _ _⟩
  obtain ⟨inside, enclosed, completes, -⟩ := parse_parenthesized trimmed parsed
  exact ⟨trimmed, parsed, rfl, decimal, inside, enclosed, completes ⟨rfl, decimal⟩⟩

/-- Alone `0.5` is zero. -/
theorem parse_parenthesized_differs :
    ¬∀ (source : String) (expression : Expression),
      Text.trim source.toList = source.toList → parse source = .ok expression →
        parse ("(" ++ source ++ ")") = .ok expression := by
  intro transparent
  have alone : parse "0.5" = .ok (.number (numberValue ['0'] [])) := rfl
  have inside : parse "(0.5)" = .ok (.number (numberValue ['0'] ['5'])) := rfl
  have text : "(" ++ "0.5" ++ ")" = "(0.5)" := by decide
  have same := transparent "0.5" _ (by decide +kernel) alone
  rw [text] at same
  have values : Expression.number (numberValue ['0'] ['5']) = .number (numberValue ['0'] []) :=
    Except.ok.inj (inside.symm.trans same)
  have zero : Binary64.toNat? (numberValue ['0'] []) = some 0 := by decide +kernel
  have half : Binary64.toNat? (numberValue ['0'] ['5']) = none := by decide +kernel
  rw [Expression.number.inj values, zero] at half
  cases half

end Expression

end XPath

end XmlRecords
