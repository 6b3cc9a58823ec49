import XmlRecords.Proofs.Schema.NodeSets

/-! # Only the set of nodes matters

A record is read from a list of nodes. Selectors merge what they find from each of these, so that
neither their order nor repetitions among them show: not in what is found, which is in document
order, and not in whether anything fails. Child schemas are evaluated at what has been found, hence
at the same nodes, and transforms and methods see the same values (`Schema.same_nodes_same_record`).
-/

namespace XmlRecords

section

variable {document : Document} {nodes others : List Address}
  (same : ∀ node, node ∈ nodes ↔ node ∈ others)

include same

namespace Selector

theorem toOption_selectFrom_congr (path : XPath.Expression) :
    (selectFrom path document nodes).toOption = (selectFrom path document others).toOption := by
  have ascending {starts found : List Address} :
      selectFrom path document starts = .ok found → Address.Ascending found :=
    ascending_of_selectFrom fun _ _ => XPath.Expression.ascending_of_select
  apply Outcome.toOption_eq_of_agree
  · rw [selectFrom_ok_iff, selectFrom_ok_iff]
    simp only [same]
  · intro found otherFound selected otherSelected
    apply (ascending selected).eq_of_mem_iff (ascending otherSelected)
    intro target
    rw [mem_of_selectFrom selected, mem_of_selectFrom otherSelected]
    simp only [same]

/-- A selector finds the same nodes from the same nodes. -/
theorem toOption_select_congr (selector : Selector) :
    (selector.select document nodes).toOption = (selector.select document others).toOption := by
  unfold select
  cases selector.context with
  | none => exact toOption_selectFrom_congr same selector.path
  | some context =>
      apply Outcome.toOption_bind_congr (toOption_selectFrom_congr same context)
      intro starts
      rfl

end Selector

/-- What is done with the nodes that a selector finds does not depend on where these are looked up
from, so that bindings agree without a look into child schemas. -/
theorem Binding.toOption_evaluate_congr (binding : Binding) (scope : Scope) :
    (binding.evaluate document nodes scope).toOption =
      (binding.evaluate document others scope).toOption := by
  cases binding with
  | typed selector conversion fallback =>
      simp only [evaluate, Selector.evaluate_eq, bind_assoc]
      apply Outcome.toOption_bind_congr (selector.toOption_select_congr same)
      intro found
      rfl
  | child selector schema =>
      simp only [evaluate]
      apply Outcome.toOption_bind_congr (selector.toOption_select_congr same)
      intro found
      rfl
  | constant value => rfl
  | method compute => rfl

namespace Field

theorem toOption_evaluate_congr (field : Field) (scope : Scope) :
    (field.evaluate document nodes scope).toOption =
      (field.evaluate document others scope).toOption := by
  obtain ⟨name, isPrivate, transform, binding⟩ := field
  simp only [evaluate]
  apply Outcome.toOption_bind_congr (binding.toOption_evaluate_congr same scope)
  intro own
  rfl

theorem toOption_evaluateAll_congr (fields : List Field) (scope : Scope) :
    (evaluateAll document fields nodes scope).toOption =
      (evaluateAll document fields others scope).toOption := by
  induction fields generalizing scope with
  | nil => rfl
  | cons field fields ih =>
      simp only [evaluateAll]
      apply Outcome.toOption_bind_congr (field.toOption_evaluate_congr same scope)
      intro record
      exact ih ⟨record, scope.enclosing⟩

end Field

theorem Schema.toOption_evaluate_congr (schema : Schema) (enclosing : List (Record Value)) :
    (schema.evaluate document nodes enclosing).toOption =
      (schema.evaluate document others enclosing).toOption := by
  obtain ⟨context, fields⟩ := schema
  simp only [evaluate]
  apply Outcome.toOption_bind_congr (Field.toOption_evaluateAll_congr same fields ⟨[], enclosing⟩)
  intro values
  rfl

end

namespace Schema

/-- The record of a schema depends only on which nodes it is read from, and not on their order or on
how often each of them is given. From two lists of the same nodes the schema has the same record, or
fails for both. -/
theorem same_nodes_same_record (document : Document) (schema : Schema) {nodes others : List Address}
    (same : ∀ node, node ∈ nodes ↔ node ∈ others) (enclosing : List (Record Value)) :
    (∀ record, schema.evaluate document nodes enclosing = .ok record ↔
      schema.evaluate document others enclosing = .ok record) ∧
    ((∃ cause, schema.evaluate document nodes enclosing = .error cause) ↔
      ∃ cause, schema.evaluate document others enclosing = .error cause) := by
  have agree : ∀ record, schema.evaluate document nodes enclosing = .ok record ↔
      schema.evaluate document others enclosing = .ok record :=
    Outcome.toOption_eq_iff.mp (schema.toOption_evaluate_congr same enclosing)
  refine ⟨agree, ?_⟩
  rw [Outcome.eq_error_iff, Outcome.eq_error_iff]
  simp only [agree]

/-- Two elements, the other way round and one of them twice. A local context leads from both to
both, a transform looks at the scope, and a method counts. -/
theorem same_nodes_same_record_repeated :
    let document : Document :=
      ⟨[.element "a" [] [.element "b" [⟨"id", "1"⟩] [] "", .element "b" [] [] ""] ""], ""⟩
    let nodes : List Address := [[.child 0, .child 0], [.child 0, .child 1]]
    let others : List Address := [[.child 0, .child 1], [.child 0, .child 0], [.child 0, .child 1]]
    let size : Scope → Value := fun scope => .integer (Int64.ofNat scope.record.length)
    let around : Transform := fun value scope =>
      .list [value, ((scope.parent?.bind fun parent => parent.get? "first").getD .null)]
    let id : XPath.Expression := .path false [.mk .attr (.name "id") []]
    let siblings : XPath.Expression := .path false [.up, .mk .child .any []]
    let item : Schema := .mk none
      [.mk "id" false (some around) (.typed ⟨id, none, false⟩ .integer .none)]
    let schema : Schema := .mk none
      [.mk "size" false none (.method size),
        .mk "first" true none (.typed ⟨id, some siblings, false⟩ .text .none),
        .mk "items" false none (.child ⟨.path false [.here], some siblings, true⟩ item)]
    (∀ node, node ∈ nodes ↔ node ∈ others) ∧
      ∃ record, schema.evaluate document nodes [] = .ok record ∧
        schema.evaluate document others [] = .ok record := by
  intro document nodes others size around id siblings item schema
  have same : ∀ node, node ∈ nodes ↔ node ∈ others := by
    intro node
    simp only [nodes, others, List.mem_cons, List.not_mem_nil, or_false]
    tauto
  have evaluated : schema.evaluate document nodes [] = .ok [("size", .integer 2),
      ("items", .list [.record [("id", .list [.integer 1, .text "1"])],
        .record [("id", .list [.null, .text "1"])]])] := by
    unfold schema document nodes item siblings id around size
    rfl
  have agree := (same_nodes_same_record document schema same []).1
  exact ⟨same, _, evaluated, (agree _).mp evaluated⟩

end Schema

end XmlRecords
