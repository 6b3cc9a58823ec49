import XmlRecords.Proofs.Schema.Reaching
import XmlRecords.Proofs.XPath.Typing

/-! # Node-sets are in document order

Whatever selects nodes gives them in document order, each once: an expression, because a path and a
union end with putting their nodes in order and nothing else makes node-sets, and a selector, which
merges what it finds from several nodes but not what it finds from a single one
(`Selector.node_sets_ascending`).
-/

namespace XmlRecords

namespace XPath

namespace Operator

/-- Of all operators only a union makes a node-set, and it puts the nodes in order. -/
theorem ascending_of_apply {document : Document} {operator : Operator} {left right : Value}
    {found : List Address} (applied : operator.apply document left right = .ok (.nodes found)) :
    Address.Ascending found := by
  cases operator with
  | union =>
      cases left with
      | nodes lefts =>
          cases right with
          | nodes rights =>
              cases applied
              exact Address.ascending_inOrder (lefts ++ rights)
          | _ => cases applied
      | _ => cases applied
  | _ => cases applied

end Operator

theorem Function.result_ne_nodes (function : Function) : function.result ≠ .nodes := by
  cases function <;> exact nofun

namespace Expression

variable {document : Document} {expression : Expression} {found : List Address}

theorem ascending_of_evaluate {focus : Focus}
    (evaluated : expression.evaluate document focus = .ok (.nodes found)) :
    Address.Ascending found := by
  cases expression with
  | literal text => cases evaluated
  | number value => cases evaluated
  | path absolute steps =>
      simp only [evaluate, Outcome.bind_eq_ok, Outcome.pure_eq_ok] at evaluated
      obtain ⟨reached, walked, same⟩ := evaluated
      cases same
      exact Step.ascending_of_walk walked (Address.ascending_singleton _)
  | call name arguments =>
      have type := type?_of_evaluate evaluated
      obtain ⟨function, _, nodes⟩ := Option.map_eq_some_iff.mp type
      exact absurd nodes function.result_ne_nodes
  | binary operator left right =>
      simp only [evaluate, Outcome.bind_eq_ok] at evaluated
      obtain ⟨leftValue, _, evaluated⟩ := evaluated
      cases decided : operator.decided? leftValue with
      | some truth =>
          rw [decided] at evaluated
          cases evaluated
      | none =>
          simp only [decided, Outcome.bind_eq_ok] at evaluated
          obtain ⟨rightValue, _, applied⟩ := evaluated
          exact Operator.ascending_of_apply applied
  | negate operand =>
      simp only [evaluate, Outcome.bind_eq_ok, Outcome.pure_eq_ok, reduceCtorEq, and_false,
        exists_false] at evaluated

theorem ascending_of_select {node root : Address}
    (selected : expression.select document node root = .ok found) : Address.Ascending found :=
  ascending_of_evaluate (select_eq_ok_iff.mp selected)

end Expression

end XPath

namespace Selector

variable {document : Document} {nodes found : List Address}

theorem ascending_of_lookup {path : XPath.Expression}
    (selected : selectFrom path document nodes = .ok found) : Address.Ascending found :=
  ascending_of_selectFrom (fun _ _ => XPath.Expression.ascending_of_select) selected

theorem ascending_of_select {selector : Selector}
    (selected : selector.select document nodes = .ok found) : Address.Ascending found := by
  unfold select at selected
  split at selected
  · exact ascending_of_lookup selected
  · obtain ⟨middles, _, onward⟩ := Outcome.bind_eq_ok.mp selected
    exact ascending_of_lookup onward

/-- Node-sets are always in strictly ascending document order, hence without repetition: those that
an expression evaluates to at any focus, those that it selects, and what a selector finds from any
list of nodes, whatever the order, the repetitions and the number of these. -/
theorem node_sets_ascending (document : Document) :
    (∀ (expression : XPath.Expression) focus found,
      expression.evaluate document focus = .ok (.nodes found) →
        Address.Ascending found ∧ found.Nodup) ∧
    (∀ (expression : XPath.Expression) node root found,
      expression.select document node root = .ok found →
        Address.Ascending found ∧ found.Nodup) ∧
    ∀ (selector : Selector) nodes found, selector.select document nodes = .ok found →
      Address.Ascending found ∧ found.Nodup := by
  refine ⟨?_, ?_, ?_⟩
  · intro expression focus found evaluated
    have ascending := XPath.Expression.ascending_of_evaluate evaluated
    exact ⟨ascending, ascending.nodup⟩
  · intro expression node root found selected
    have ascending := XPath.Expression.ascending_of_select selected
    exact ⟨ascending, ascending.nodup⟩
  · intro selector nodes found selected
    have ascending := ascending_of_select selected
    exact ⟨ascending, ascending.nodup⟩

/-- The path `preceding-sibling::*` in the context `following-sibling::*`, from a list with the same
element twice. -/
theorem node_sets_ascending_siblings :
    let document : Document :=
      ⟨[.element "a" [] [] "", .element "b" [] [] "", .element "c" [] [] ""], ""⟩
    let selector : Selector := ⟨.path false [.mk .precedingSibling .any []],
      some (.path false [.mk .followingSibling .any []]), true⟩
    let nodes : List Address := [[.child 0], [.child 0]]
    ∃ found, selector.select document nodes = .ok found ∧ 1 < found.length ∧
      (Address.Ascending found ∧ found.Nodup) := by
  intro document selector nodes
  have selected : selector.select document nodes = .ok [[.child 0], [.child 1]] := rfl
  exact ⟨_, selected, by decide, (node_sets_ascending document).2.2 selector nodes _ selected⟩

end Selector

end XmlRecords
