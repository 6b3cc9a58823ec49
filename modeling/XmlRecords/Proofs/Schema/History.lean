import XmlRecords.Proofs.Record
import XmlRecords.Proofs.Schema.Building
import XmlRecords.Schema.Evaluation

/-! # How the values of a record come about

The fields of a schema get their values one after another: first those that are bound to nodes, to
schemas and to constants, in order, and then the methods, in order. Each value is put behind those
that are there, because names do not come twice. What is there when a field gets its value is all
that its transform, its child schema or its method sees of the record.
-/

namespace XmlRecords

namespace Field

/-- The change of the value of a field. -/
def transform : Field → Option Transform
  | mk _ _ transform _ => transform

/-- What a field is bound to. -/
def binding : Field → Binding
  | mk _ _ _ binding => binding

/-- The field is computed from the others. -/
def isMethod : Field → Bool
  | mk _ _ _ (.method _) => true
  | _ => false

/-- The field has a value before methods are computed. -/
def isPlain (field : Field) : Bool :=
  !field.isMethod

/-- The names of the fields of a kind, in order. -/
def namesOf (kind : Field → Bool) (fields : List Field) : List String :=
  (fields.filter kind).map name

end Field

namespace Binding

section

variable (document : Document) (nodes : List Address) (scope : Scope)

/-- The binding gives a value. Child schemas are evaluated within the scope, at the first node that
is found, if there is one, or at each of them. -/
inductive Gives : Binding → Value → Prop where
  | typed {selector : Selector} {conversion : Conversion} {fallback : Fallback} {value : Value}
      (read : selector.evaluate document conversion fallback nodes = .ok value) :
      Gives (.typed selector conversion fallback) value
  | child {selector : Selector} {schema : Schema} {found : List Address} {record : Record Value}
      (single : selector.isArray = false) (selected : selector.select document nodes = .ok found)
      (evaluated : schema.evaluate document (found.take 1) (scope.record :: scope.enclosing) =
        .ok record) :
      Gives (.child selector schema) (.record record)
  | children {selector : Selector} {schema : Schema} {found : List Address}
      {records : List (Record Value)} (array : selector.isArray = true)
      (selected : selector.select document nodes = .ok found)
      (evaluated : List.Forall₂ (fun node record =>
        schema.evaluate document [node] (scope.record :: scope.enclosing) = .ok record)
        found records) :
      Gives (.child selector schema) (.list (records.map .record))
  | constant {value : Value} : Gives (.constant value) value

/-- The binding fails. Of several nodes of a child schema the first that it fails at decides. -/
inductive Fails (cause : BindingError) : Binding → Prop where
  | typed {selector : Selector} {conversion : Conversion} {fallback : Fallback}
      (read : selector.evaluate document conversion fallback nodes = .error cause) :
      Fails cause (.typed selector conversion fallback)
  | unselected {selector : Selector} {schema : Schema}
      (selected : selector.select document nodes = .error cause) :
      Fails cause (.child selector schema)
  | child {selector : Selector} {schema : Schema} {found : List Address}
      (single : selector.isArray = false) (selected : selector.select document nodes = .ok found)
      (evaluated : schema.evaluate document (found.take 1) (scope.record :: scope.enclosing) =
        .error cause) :
      Fails cause (.child selector schema)
  | children {selector : Selector} {schema : Schema} {before behind : List Address}
      {node : Address} (array : selector.isArray = true)
      (selected : selector.select document nodes = .ok (before ++ node :: behind))
      (earlier : ∀ other ∈ before, ∃ record,
        schema.evaluate document [other] (scope.record :: scope.enclosing) = .ok record)
      (evaluated : schema.evaluate document [node] (scope.record :: scope.enclosing) =
        .error cause) :
      Fails cause (.child selector schema)

end

variable {document : Document} {nodes : List Address} {scope : Scope} {binding : Binding}

theorem evaluate_eq_some_iff {value : Value} :
    binding.evaluate document nodes scope = .ok (some value) ↔
      binding.Gives document nodes scope value := by
  cases binding with
  | typed selector conversion fallback =>
      simp only [evaluate, Outcome.bind_eq_ok, Outcome.pure_eq_ok, Option.some.injEq,
        exists_eq_right]
      constructor
      · exact .typed
      · rintro ⟨read⟩
        exact read
  | child selector schema =>
      cases array : selector.isArray with
      | false =>
          simp only [evaluate, array, Bool.false_eq_true, ↓reduceIte, Outcome.bind_eq_ok,
            Outcome.pure_eq_ok, Option.some.injEq]
          constructor
          · rintro ⟨found, selected, record, evaluated, rfl⟩
            exact .child array selected evaluated
          · rintro (_ | ⟨_, selected, evaluated⟩ | ⟨isArray, _, _⟩)
            · exact ⟨_, selected, _, evaluated, rfl⟩
            · cases array.symm.trans isArray
      | true =>
          simp only [evaluate, array, ↓reduceIte, Outcome.bind_eq_ok, Outcome.pure_eq_ok,
            Option.some.injEq, Outcome.mapM_eq_ok_iff]
          constructor
          · rintro ⟨found, selected, records, evaluated, rfl⟩
            exact .children array selected evaluated
          · rintro (_ | ⟨single, _, _⟩ | ⟨_, selected, evaluated⟩)
            · cases array.symm.trans single
            · exact ⟨_, selected, _, evaluated, rfl⟩
  | constant held =>
      simp only [evaluate, Outcome.pure_eq_ok, Option.some.injEq]
      constructor
      · rintro rfl
        exact .constant
      · rintro ⟨⟩
        rfl
  | method compute =>
      simp only [evaluate, Outcome.pure_eq_ok, reduceCtorEq, false_iff]
      intro gives
      cases gives

theorem evaluate_eq_error_iff {cause : BindingError} :
    binding.evaluate document nodes scope = .error cause ↔
      binding.Fails document nodes scope cause := by
  cases binding with
  | typed selector conversion fallback =>
      simp only [evaluate, Outcome.bind_eq_error, pure, Except.pure, reduceCtorEq, and_false,
        exists_false, or_false]
      constructor
      · exact .typed
      · rintro ⟨read⟩
        exact read
  | child selector schema =>
      cases array : selector.isArray with
      | false =>
          simp only [evaluate, array, Bool.false_eq_true, ↓reduceIte, Outcome.bind_eq_error, pure,
            Except.pure, reduceCtorEq, and_false, exists_false, or_false]
          constructor
          · rintro (selected | ⟨found, selected, evaluated⟩)
            · exact .unselected selected
            · exact .child array selected evaluated
          · rintro (_ | selected | ⟨_, selected, evaluated⟩ | ⟨isArray, _, _, _⟩)
            · exact .inl selected
            · exact .inr ⟨_, selected, evaluated⟩
            · cases array.symm.trans isArray
      | true =>
          simp only [evaluate, array, ↓reduceIte, Outcome.bind_eq_error, pure, Except.pure,
            reduceCtorEq, and_false, exists_false, or_false, Outcome.mapM_eq_error_iff]
          constructor
          · rintro (selected | ⟨_, selected, before, node, behind, rfl, earlier, evaluated⟩)
            · exact .unselected selected
            · exact .children array selected earlier evaluated
          · rintro (_ | selected | ⟨single, _, _⟩ | ⟨_, selected, earlier, evaluated⟩)
            · exact .inl selected
            · cases array.symm.trans single
            · exact .inr ⟨_, selected, _, _, _, rfl, earlier, evaluated⟩
  | constant held =>
      simp only [evaluate, pure, Except.pure, reduceCtorEq, false_iff]
      intro fails
      cases fails
  | method compute =>
      simp only [evaluate, pure, Except.pure, reduceCtorEq, false_iff]
      intro fails
      cases fails

/-- Only a method is bound to no value. -/
theorem exists_of_evaluate_eq_none (given : binding.evaluate document nodes scope = .ok none) :
    ∃ compute, binding = .method compute := by
  cases binding with
  | typed selector conversion fallback =>
      simp only [evaluate, Outcome.bind_eq_ok, Outcome.pure_eq_ok, reduceCtorEq, and_false,
        exists_false] at given
  | child selector schema =>
      cases array : selector.isArray <;>
        simp only [evaluate, array, Bool.false_eq_true, ↓reduceIte, Outcome.bind_eq_ok,
          Outcome.pure_eq_ok, reduceCtorEq, and_false, exists_false] at given
  | constant held => cases given
  | method compute => exact ⟨compute, rfl⟩

end Binding

namespace Field

section Names

variable {kind : Field → Bool} {fields : List Field}

theorem namesOf_cons_of_pos {field : Field} (holds : kind field = true) :
    namesOf kind (field :: fields) = field.name :: namesOf kind fields := by
  rw [namesOf, List.filter_cons_of_pos holds, List.map_cons, namesOf]

theorem namesOf_cons_of_neg {field : Field} (fails : kind field = false) :
    namesOf kind (field :: fields) = namesOf kind fields := by
  rw [namesOf, List.filter_cons_of_neg (Bool.eq_false_iff.mp fails), namesOf]

theorem namesOf_append (first second : List Field) :
    namesOf kind (first ++ second) = namesOf kind first ++ namesOf kind second := by
  rw [namesOf, List.filter_append, List.map_append, namesOf, namesOf]

theorem sublist_namesOf : (namesOf kind fields).Sublist (fields.map name) :=
  List.filter_sublist.map name

/-- With different names, a name belongs to fields of a kind if its own field is of this kind. -/
theorem name_mem_namesOf (distinct : (fields.map name).Nodup) {field : Field}
    (member : field ∈ fields) : field.name ∈ namesOf kind fields ↔ kind field = true := by
  constructor
  · intro listed
    obtain ⟨other, kept, same⟩ := List.mem_map.mp listed
    obtain ⟨otherMember, holds⟩ := List.mem_filter.mp kept
    rwa [List.inj_on_of_nodup_map distinct member otherMember same.symm]
  · intro holds
    exact List.mem_map_of_mem (List.mem_filter.mpr ⟨member, holds⟩)

end Names

variable {document : Document} {nodes : List Address} {enclosing : List (Record Value)}

theorem evaluateAll_append (first second : List Field) (scope : Scope) :
    evaluateAll document (first ++ second) nodes scope =
      evaluateAll document first nodes scope >>= fun record =>
        evaluateAll document second nodes ⟨record, scope.enclosing⟩ := by
  induction first generalizing scope with
  | nil => rfl
  | cons field first ih => simp only [List.cons_append, evaluateAll, ih, bind_assoc]

/-- The first field that fails decides the error, after those before it have been evaluated. -/
theorem exists_of_evaluateAll_eq_error {fields : List Field} {scope : Scope} {cause : BindingError}
    (failed : evaluateAll document fields nodes scope = .error cause) :
    ∃ before field behind seen, fields = before ++ field :: behind ∧
      evaluateAll document before nodes scope = .ok seen ∧
        field.evaluate document nodes ⟨seen, scope.enclosing⟩ = .error cause := by
  induction fields generalizing scope with
  | nil => cases failed
  | cons first fields ih =>
      rcases Outcome.bind_eq_error.mp failed with here | ⟨record, evaluated, later⟩
      · exact ⟨[], first, fields, scope.record, rfl, rfl, here⟩
      · obtain ⟨before, field, behind, seen, rfl, earlier, there⟩ := ih later
        exact ⟨first :: before, field, behind, seen, rfl,
          Outcome.bind_eq_ok.mpr ⟨record, evaluated, earlier⟩, there⟩

theorem computeAll_append (first second : List Field) (record : Record Value) :
    computeAll enclosing record (first ++ second) =
      computeAll enclosing (computeAll enclosing record first) second := by
  induction first generalizing record with
  | nil => rfl
  | cons field first ih => exact ih (field.compute enclosing record)

/-- A field that is no method gets the value that its binding gives, changed by its transform. -/
theorem evaluate_eq_ok_iff {field : Field} (plain : field.isPlain = true) {scope : Scope}
    {record : Record Value} :
    field.evaluate document nodes scope = .ok record ↔
      ∃ own, field.binding.Gives document nodes scope own ∧
        record = Record.insert field.name (applyTransform field.transform own scope)
          scope.record := by
  obtain ⟨name, isPrivate, transform, binding⟩ := field
  simp only [evaluate, Outcome.bind_eq_ok, Field.binding, Field.name, Field.transform,
    ← Binding.evaluate_eq_some_iff]
  constructor
  · rintro ⟨own?, given, inserted⟩
    cases own? with
    | none =>
        obtain ⟨compute, rfl⟩ := Binding.exists_of_evaluate_eq_none given
        cases plain
    | some own =>
        cases inserted
        exact ⟨own, given, rfl⟩
  · rintro ⟨own, given, rfl⟩
    exact ⟨some own, given, rfl⟩

/-- A value with a new name is put behind those that are there. -/
theorem evaluate_eq_ok_iff_of_new {field : Field} (plain : field.isPlain = true) {scope : Scope}
    (new : field.name ∉ Record.names scope.record) {record : Record Value} :
    field.evaluate document nodes scope = .ok record ↔
      ∃ own, field.binding.Gives document nodes scope own ∧
        record = scope.record ++ [(field.name, applyTransform field.transform own scope)] := by
  simp only [evaluate_eq_ok_iff plain, Record.insert_of_not_mem new]

theorem evaluate_eq_error_iff {field : Field} {scope : Scope} {cause : BindingError} :
    field.evaluate document nodes scope = .error cause ↔
      field.binding.Fails document nodes scope cause := by
  obtain ⟨name, isPrivate, transform, binding⟩ := field
  simp only [evaluate, Outcome.bind_eq_error, Field.binding, ← Binding.evaluate_eq_error_iff]
  refine ⟨fun failed => failed.resolve_right ?_, .inl⟩
  rintro ⟨own?, _, failed⟩
  cases own? <;> cases failed

theorem evaluate_of_isMethod {field : Field} (method : field.isMethod = true) (scope : Scope) :
    field.evaluate document nodes scope = .ok scope.record := by
  obtain ⟨name, isPrivate, transform, binding⟩ := field
  cases binding with
  | method compute => rfl
  | _ => cases method

theorem compute_of_isPlain {field : Field} (plain : field.isPlain = true)
    (enclosing : List (Record Value)) (record : Record Value) :
    field.compute enclosing record = record := by
  obtain ⟨name, isPrivate, transform, binding⟩ := field
  cases binding with
  | method compute => cases plain
  | _ => rfl

/-- The values of the fields of a kind, one behind the other. Each of them is given by its field
from the values of the fields before it. -/
structure IsHistory (kind : Field → Bool) (gives : Field → Record Value → Value → Prop)
    (fields : List Field) (values : Record Value) : Prop where
  names : Record.names values = namesOf kind fields
  each : ∀ before field behind, fields = before ++ field :: behind → kind field = true →
    ∃ seen value rest, values = seen ++ (field.name, value) :: rest ∧
      Record.names seen = namesOf kind before ∧ gives field seen value

/-- A field has a value in the history, which has been given by it. -/
theorem IsHistory.exists_gives {kind : Field → Bool} {gives : Field → Record Value → Value → Prop}
    {fields : List Field} {values : Record Value} (history : IsHistory kind gives fields values)
    (distinct : (Record.names values).Nodup) {field : Field} (member : field ∈ fields)
    (holds : kind field = true) :
    ∃ seen value, Record.get? field.name values = some value ∧ gives field seen value := by
  obtain ⟨before, behind, split⟩ := List.append_of_mem member
  obtain ⟨seen, value, rest, rfl, -, given⟩ := history.each before field behind split holds
  exact ⟨seen, value, (Record.get?_eq_some_iff distinct).mpr (List.mem_append_cons_self), given⟩

/-- What a field gives that is no method: the value of its binding, changed by its transform, both
within the values that are there and the records around them. -/
def GivesChanged (document : Document) (nodes : List Address) (enclosing : List (Record Value))
    (field : Field) (seen : Record Value) (value : Value) : Prop :=
  ∃ own, field.binding.Gives document nodes ⟨seen, enclosing⟩ own ∧
    value = applyTransform field.transform own ⟨seen, enclosing⟩

/-- What a method gives: the value that it computes from all plain values and those of the methods
before it. -/
def GivesComputed (enclosing : List (Record Value)) (values : Record Value) (field : Field)
    (seen : Record Value) (value : Value) : Prop :=
  ∃ compute, field.binding = .method compute ∧ value = compute ⟨values ++ seen, enclosing⟩

/-- What is evaluated of fields with new names comes behind what is there. -/
theorem exists_of_evaluateAll {fields : List Field} (seen : Record Value) {record : Record Value}
    (distinct : (Record.names seen ++ namesOf isPlain fields).Nodup)
    (evaluated : evaluateAll document fields nodes ⟨seen, enclosing⟩ = .ok record) :
    ∃ values, record = seen ++ values ∧ Record.names values = namesOf isPlain fields := by
  induction fields generalizing seen with
  | nil =>
      cases evaluated
      exact ⟨[], (List.append_nil seen).symm, rfl⟩
  | cons field fields ih =>
      obtain ⟨middle, here, behind⟩ := Outcome.bind_eq_ok.mp evaluated
      cases plain : field.isPlain with
      | false =>
          rw [namesOf_cons_of_neg plain] at distinct ⊢
          rw [evaluate_of_isMethod ((Bool.not_eq_false' _).mp plain)] at here
          cases here
          exact ih seen distinct behind
      | true =>
          rw [namesOf_cons_of_pos plain] at distinct ⊢
          obtain ⟨own, -, rfl⟩ :=
            (evaluate_eq_ok_iff_of_new plain (Record.not_mem_of_nodup distinct)).mp here
          rw [List.append_cons] at distinct
          obtain ⟨values, rfl, names⟩ := ih _ (by rwa [Record.names_append]) behind
          exact ⟨_ :: values, (List.append_cons seen _ values).symm,
            congrArg (field.name :: ·) names⟩

/-- Methods with new names are computed behind what is there. -/
theorem exists_of_computeAll {fields : List Field} (enclosing : List (Record Value))
    (seen : Record Value)
    (distinct : (Record.names seen ++ namesOf isMethod fields).Nodup) :
    ∃ values, computeAll enclosing seen fields = seen ++ values ∧
      Record.names values = namesOf isMethod fields := by
  induction fields generalizing seen with
  | nil => exact ⟨[], (List.append_nil seen).symm, rfl⟩
  | cons field fields ih =>
      obtain ⟨name, isPrivate, transform, binding⟩ := field
      cases binding with
      | method compute =>
          rw [namesOf_cons_of_pos rfl] at distinct ⊢
          have new : name ∉ Record.names seen := Record.not_mem_of_nodup distinct
          rw [computeAll, Field.compute, Record.insert_of_not_mem new]
          rw [List.append_cons] at distinct
          obtain ⟨values, same, names⟩ := ih (seen ++ [(name, compute ⟨seen, enclosing⟩)])
            (by rwa [Record.names_append])
          exact ⟨_ :: values, same.trans (List.append_cons seen _ values).symm,
            congrArg (name :: ·) names⟩
      | _ =>
          rw [namesOf_cons_of_neg rfl] at distinct ⊢
          exact ih seen distinct

/-- The plain values are a history. -/
theorem isHistory_of_evaluateAll {fields : List Field} {values : Record Value}
    (distinct : (namesOf isPlain fields).Nodup)
    (evaluated : evaluateAll document fields nodes ⟨[], enclosing⟩ = .ok values) :
    IsHistory isPlain (GivesChanged document nodes enclosing) fields values := by
  constructor
  · obtain ⟨_, rfl, names⟩ := exists_of_evaluateAll [] distinct evaluated
    exact names
  · rintro before field behind rfl plain
    rw [namesOf_append, namesOf_cons_of_pos plain] at distinct
    obtain ⟨seen, earlier, onward⟩ :=
      Outcome.bind_eq_ok.mp ((evaluateAll_append ..).symm.trans evaluated)
    obtain ⟨middle, here, later⟩ := Outcome.bind_eq_ok.mp onward
    obtain ⟨_, rfl, names⟩ := exists_of_evaluateAll [] distinct.of_append_left earlier
    rw [← names] at distinct
    obtain ⟨own, given, rfl⟩ :=
      (evaluate_eq_ok_iff_of_new plain (Record.not_mem_of_nodup distinct)).mp here
    rw [List.append_cons] at distinct
    obtain ⟨rest, rfl, -⟩ := exists_of_evaluateAll _ (by rwa [Record.names_append]) later
    exact ⟨seen, _, rest, (List.append_cons seen _ rest).symm, names, own, given, rfl⟩

/-- The values of methods are a history, behind the plain values. -/
theorem isHistory_of_computeAll {fields : List Field} {values computed : Record Value}
    (distinct : (Record.names values ++ namesOf isMethod fields).Nodup)
    (same : computeAll enclosing values fields = values ++ computed) :
    IsHistory isMethod (GivesComputed enclosing values) fields computed := by
  constructor
  · obtain ⟨others, others_eq, names⟩ := exists_of_computeAll enclosing values distinct
    rwa [List.append_cancel_left (same.symm.trans others_eq)]
  · rintro before ⟨name, isPrivate, transform, binding⟩ behind rfl method
    cases binding with
    | method compute =>
        rw [namesOf_append, namesOf_cons_of_pos method, ← List.append_assoc] at distinct
        obtain ⟨seen, earlier, names⟩ :=
          exists_of_computeAll enclosing values distinct.of_append_left
        rw [← names, ← Record.names_append] at distinct
        have new : name ∉ Record.names (values ++ seen) := Record.not_mem_of_nodup distinct
        rw [List.append_cons] at distinct
        rw [computeAll_append, earlier, computeAll, Field.compute,
          Record.insert_of_not_mem new] at same
        obtain ⟨rest, later, -⟩ := exists_of_computeAll enclosing
          (values ++ seen ++ [(name, compute ⟨values ++ seen, enclosing⟩)])
          (by rwa [Record.names_append])
        rw [later, List.append_assoc, List.append_assoc] at same
        exact ⟨seen, _, rest, (List.append_cancel_left same).symm, names, compute, rfl, rfl⟩
    | _ => cases method

end Field

end XmlRecords
