import XmlRecords.Proofs.Outcome

/-! # What is not evaluated

The left operand of `and` and of `or` may decide the value, and the right one is not evaluated then.
Here the operators that the left operand decides are a parameter of the evaluation: with none of
them both operands are always evaluated, wherever they stand. This may meet errors that are not met
otherwise, in predicates and arguments too, but a value that it gives is the same
(`Expression.short_circuit_saves_work`).
-/

namespace XmlRecords

namespace XPath

section With

variable (decided? : Operator → Value → Option Bool) (document : Document)

mutual

/-- The value of an expression at a focus. An operator that its left operand decides has the value
that is decided on. -/
def Expression.evaluateWith (focus : Focus) : Expression → Except Error Value
  | .literal text => .ok (.string text)
  | .number value => .ok (.number value)
  | .path absolute steps => do
      let start := if absolute then focus.root else focus.node
      return .nodes (← Step.walkWith focus.root steps [start])
  | .call name arguments => do
      callFunction name document focus (← Expression.evaluateAllWith focus arguments)
  | .binary operator left right => do
      let left ← Expression.evaluateWith focus left
      match decided? operator left with
      | some truth => return .boolean truth
      | none =>
          let right ← Expression.evaluateWith focus right
          operator.apply document left right
  | .negate operand => do
      let value ← Expression.evaluateWith focus operand
      return .number (-(value.toNumber document))

def Expression.evaluateAllWith (focus : Focus) : List Expression → Except Error (List Value)
  | [] => .ok []
  | expression :: expressions => do
      let value ← Expression.evaluateWith focus expression
      let values ← Expression.evaluateAllWith focus expressions
      return value :: values

def Step.walkWith (root : Address) : List Step → List Address → Except Error (List Address)
  | [], nodes => .ok nodes
  | step :: steps, nodes => do
      let found ← collect (fun node => Step.nodesFromWith root step node) nodes
      Step.walkWith root steps (Address.inOrder found)

def Step.nodesFromWith (root : Address) : Step → Address → Except Error (List Address)
  | .mk axis test predicates, node =>
      Expression.keepAllWith root predicates
        ((axis.nodes document node).filter (test.admits axis document))

def Expression.keepAllWith (root : Address) :
    List Expression → List Address → Except Error (List Address)
  | [], nodes => .ok nodes
  | predicate :: predicates, nodes => do
      let kept ← collect
        (fun (node, index) => do
          let value ← Expression.evaluateWith
            { node := node, root := root, position := index + 1, size := nodes.length } predicate
          return if value.keeps (index + 1) then [node] else [])
        nodes.zipIdx
      Expression.keepAllWith root predicates kept

end

end With

/-- No operator is decided by its left operand. -/
def Operator.undecided (_ : Operator) (_ : Value) : Option Bool :=
  none

/-- An operator that the left operand decides has this value for every right operand. -/
theorem Operator.apply_of_decided? {operator : Operator} {left : Value} {truth : Bool}
    (decided : operator.decided? left = some truth) (document : Document) (right : Value) :
    operator.apply document left right = .ok (.boolean truth) := by
  cases operator with
  | and =>
      by_cases holds : left.toBoolean = true
      · simp only [decided?, holds, ↓reduceIte, reduceCtorEq] at decided
      · simp only [decided?, holds, Bool.false_eq_true, ↓reduceIte, Option.some.injEq] at decided
        rw [← decided, apply, Bool.eq_false_iff.mpr holds, Bool.false_and]
  | or =>
      by_cases holds : left.toBoolean = true
      · simp only [decided?, holds, ↓reduceIte, Option.some.injEq] at decided
        rw [← decided, apply, holds, Bool.true_or]
      · simp only [decided?, holds, Bool.false_eq_true, ↓reduceIte, reduceCtorEq] at decided
  | _ => cases decided

mutual

/-- The evaluation in which the left operand decides what it does decide is the evaluation of
expressions. -/
theorem Expression.evaluateWith_decided? (document : Document) (focus : Focus) :
    (expression : Expression) →
      expression.evaluateWith Operator.decided? document focus =
        expression.evaluate document focus
  | .literal _ => rfl
  | .number _ => rfl
  | .path absolute steps => by
      simp only [Expression.evaluateWith, Expression.evaluate,
        Step.walkWith_decided? document focus.root steps]
  | .call name arguments => by
      simp only [Expression.evaluateWith, Expression.evaluate,
        Expression.evaluateAllWith_decided? document focus arguments]
  | .binary operator left right => by
      apply congrArg₂ bind (Expression.evaluateWith_decided? document focus left)
      funext leftValue
      cases operator.decided? leftValue with
      | some truth => rfl
      | none =>
          apply congrArg₂ bind (Expression.evaluateWith_decided? document focus right)
          rfl
  | .negate operand => by
      simp only [Expression.evaluateWith, Expression.evaluate,
        Expression.evaluateWith_decided? document focus operand]

theorem Expression.evaluateAllWith_decided? (document : Document) (focus : Focus) :
    (expressions : List Expression) →
      Expression.evaluateAllWith Operator.decided? document focus expressions =
        Expression.evaluateAll document focus expressions
  | [] => rfl
  | expression :: expressions => by
      simp only [Expression.evaluateAllWith, Expression.evaluateAll,
        Expression.evaluateWith_decided? document focus expression,
        Expression.evaluateAllWith_decided? document focus expressions]

/-- Steps only pass the evaluation on to their predicates. -/
theorem Step.walkWith_decided? (document : Document) (root : Address) :
    (steps : List Step) → (nodes : List Address) →
      Step.walkWith Operator.decided? document root steps nodes =
        Step.walk document root steps nodes
  | [], _ => rfl
  | step :: steps, nodes => by
      simp only [Step.walkWith, Step.walk, Step.nodesFromWith_decided? document root step,
        Step.walkWith_decided? document root steps]

theorem Step.nodesFromWith_decided? (document : Document) (root : Address) :
    (step : Step) → (node : Address) →
      Step.nodesFromWith Operator.decided? document root step node =
        Step.nodesFrom document root step node
  | .mk axis test predicates, node =>
      Expression.keepAllWith_decided? document root predicates
        ((axis.nodes document node).filter (test.admits axis document))

theorem Expression.keepAllWith_decided? (document : Document) (root : Address) :
    (predicates : List Expression) → (nodes : List Address) →
      Expression.keepAllWith Operator.decided? document root predicates nodes =
        Expression.keepAll document root predicates nodes
  | [], _ => rfl
  | predicate :: predicates, nodes => by
      simp only [Expression.keepAllWith, Expression.keepAll,
        fun focus => Expression.evaluateWith_decided? document focus predicate,
        Expression.keepAllWith_decided? document root predicates]

end

open Outcome

mutual

/-- Evaluating both operands of all operators gives no other value than that of the expression. -/
theorem Expression.refines_evaluate (document : Document) (focus : Focus) :
    (expression : Expression) →
      Refines (expression.evaluateWith Operator.undecided document focus)
        (expression.evaluate document focus)
  | .literal text => refines_refl
  | .number value => refines_refl
  | .path absolute steps => by
      apply Refines.bind (Step.refines_walk document focus.root steps _)
      intro found
      exact refines_refl
  | .call name arguments => by
      apply Refines.bind (Expression.refines_evaluateAll document focus arguments)
      intro values
      exact refines_refl
  | .binary operator left right => by
      apply Refines.bind (Expression.refines_evaluate document focus left)
      intro leftValue
      cases decided : operator.decided? leftValue with
      | some truth =>
          -- The right operand is evaluated in vain.
          intro value evaluated
          obtain ⟨rightValue, _, applied⟩ := bind_eq_ok.mp evaluated
          rw [Operator.apply_of_decided? decided document rightValue] at applied
          exact applied
      | none =>
          apply Refines.bind (Expression.refines_evaluate document focus right)
          intro rightValue
          exact refines_refl
  | .negate operand => by
      apply Refines.bind (Expression.refines_evaluate document focus operand)
      intro value
      exact refines_refl

theorem Expression.refines_evaluateAll (document : Document) (focus : Focus) :
    (expressions : List Expression) →
      Refines (Expression.evaluateAllWith Operator.undecided document focus expressions)
        (Expression.evaluateAll document focus expressions)
  | [] => refines_refl
  | expression :: expressions => by
      apply Refines.bind (Expression.refines_evaluate document focus expression)
      intro value
      apply Refines.bind (Expression.refines_evaluateAll document focus expressions)
      intro values
      exact refines_refl

/-- A walk that succeeds without the short cut goes the same way with it. -/
theorem Step.refines_walk (document : Document) (root : Address) :
    (steps : List Step) → (nodes : List Address) →
      Refines (Step.walkWith Operator.undecided document root steps nodes)
        (Step.walk document root steps nodes)
  | [], nodes => refines_refl
  | step :: steps, nodes => by
      apply Refines.bind (refines_collect (Step.refines_nodesFrom document root step) nodes)
      intro found
      exact Step.refines_walk document root steps (Address.inOrder found)

theorem Step.refines_nodesFrom (document : Document) (root : Address) :
    (step : Step) → (node : Address) →
      Refines (Step.nodesFromWith Operator.undecided document root step node)
        (Step.nodesFrom document root step node)
  | .mk axis test predicates, node =>
      Expression.refines_keepAll document root predicates
        ((axis.nodes document node).filter (test.admits axis document))

/-- The same holds of predicates, one after the other. -/
theorem Expression.refines_keepAll (document : Document) (root : Address) :
    (predicates : List Expression) → (nodes : List Address) →
      Refines (Expression.keepAllWith Operator.undecided document root predicates nodes)
        (Expression.keepAll document root predicates nodes)
  | [], nodes => refines_refl
  | predicate :: predicates, nodes => by
      refine Refines.bind (refines_collect ?_ nodes.zipIdx) ?_
      · intro entry
        apply Refines.bind (Expression.refines_evaluate document
          ⟨entry.1, root, entry.2 + 1, nodes.length⟩ predicate)
        intro value
        exact refines_refl
      · intro kept
        exact Expression.refines_keepAll document root predicates kept

end

namespace Expression

/-- Leaving out the right operand where the left one decides only saves work. The evaluation differs
in nothing else from one that evaluates all operands, at every depth; what this one gives is the
value of the expression, and if the expression has no value, then this one fails too. -/
theorem short_circuit_saves_work (document : Document) (focus : Focus) (expression : Expression) :
    expression.evaluateWith Operator.decided? document focus =
        expression.evaluate document focus ∧
      (∀ value, expression.evaluateWith Operator.undecided document focus = .ok value →
        expression.evaluate document focus = .ok value) ∧
      ((∃ cause, expression.evaluate document focus = .error cause) →
        ∃ cause, expression.evaluateWith Operator.undecided document focus = .error cause) := by
  have refines := refines_evaluate document focus expression
  refine ⟨evaluateWith_decided? document focus expression, refines, ?_⟩
  intro failed
  exact refines.exists_error failed

/-- The paths `*[@id or self::b]` and `*[@id and f()]`, in a document with two elements of which
only the first one has an `id`. -/
theorem short_circuit_saves_work_predicate :
    let document : Document := ⟨[.element "a" [⟨"id", "1"⟩] [] "", .element "b" [] [] ""], ""⟩
    let focus : Focus := ⟨[], [], 1, 1⟩
    let id : Expression := .path false [.mk .attr (.name "id") []]
    let items (operator : Operator) (right : Expression) : Expression :=
      .path false [.mk .child .any [.binary operator id right]]
    let either := items .or (.path false [.mk .self (.name "b") []])
    let both := items .and (.call "f" [])
    let all : Value := .nodes [[.child 0], [.child 1]]
    (either.evaluateWith Operator.undecided document focus = .ok all ∧
      either.evaluate document focus = .ok all) ∧
    (∃ cause, both.evaluate document focus = .error cause) ∧
      ∃ cause, both.evaluateWith Operator.undecided document focus = .error cause := by
  intro document focus id items either both all
  have found : either.evaluateWith Operator.undecided document focus = .ok all := rfl
  have failed : both.evaluate document focus = .error (.unknownFunction "f") := rfl
  have eitherSaves := (short_circuit_saves_work document focus either).2.1
  have bothSaves := (short_circuit_saves_work document focus both).2.2
  exact ⟨⟨found, eitherSaves all found⟩, ⟨_, failed⟩, bothSaves ⟨_, failed⟩⟩

/-- An operand that is left out may be one that has no value. -/
example :
    let document : Document := ⟨[], ""⟩
    let focus : Focus := ⟨[], [], 1, 1⟩
    let expression : Expression := .binary .or (.call "true" []) (.call "f" [])
    expression.evaluate document focus = .ok (.boolean true) ∧
      expression.evaluateWith Operator.undecided document focus = .error (.unknownFunction "f") :=
  ⟨rfl, rfl⟩

end Expression

end XPath

end XmlRecords
