import XmlRecords.Proofs.Schema.DeclarationOrder

/-! # Records without nodes

Where no nodes are found, there is nothing to look up expressions from and nothing to convert. A
schema without transforms and methods then has a record all the same, which can be read off the
schema: fields have the values that stand in for missing nodes, lists are empty, and child fields
have the records of their own schemas, again without nodes
(`Schema.evaluate_without_nodes`). This is the record of every document in which the context of the
schema selects nothing, whatever expressions and formats the schema has.
-/

namespace XmlRecords

/-- The value of a node that is not found. No value stands in for the source of a node. -/
def Conversion.missingValue (conversion : Conversion) (fallback : Fallback) : Value :=
  match conversion with
  | void => .null
  | _ => fallback.missing.getD .null

mutual

/-- The values of the public fields of a schema where no nodes are found. -/
def Schema.defaults : Schema → Record Value
  | .mk _ fields => Field.publicDefaults fields

def Field.publicDefaults : List Field → Record Value
  | [] => []
  | .mk name isPrivate _ binding :: fields =>
      if isPrivate then
        Field.publicDefaults fields
      else
        (name, binding.default) :: Field.publicDefaults fields

/-- The value of a field where no nodes are found. A method has none, and null is put for it. -/
def Binding.default : Binding → Value
  | .typed selector conversion fallback =>
      if selector.isArray then .list [] else conversion.missingValue fallback
  | .child selector schema => if selector.isArray then .list [] else .record schema.defaults
  | .constant value => value
  | .method _ => .null

end

variable {document : Document}

theorem Conversion.convertNode_none (conversion : Conversion) (fallback : Fallback) :
    conversion.convertNode fallback document none = .ok (conversion.missingValue fallback) := by
  cases conversion <;> rfl

namespace Selector

/-- From no nodes no nodes are found, since no expression is evaluated at all. -/
theorem select_nil (selector : Selector) : selector.select document [] = .ok [] := by
  unfold select
  cases selector.context <;> rfl

theorem evaluate_nil (selector : Selector) (conversion : Conversion) (fallback : Fallback) :
    selector.evaluate document conversion fallback [] =
      .ok (if selector.isArray then .list [] else conversion.missingValue fallback) := by
  rw [evaluate, select_nil]
  cases selector.isArray with
  | false => exact conversion.convertNode_none fallback
  | true => rfl

end Selector

namespace Field

variable {fields : List Field}

/-- All fields with their values where no nodes are found. -/
def allDefaults (fields : List Field) : Record Value :=
  fields.map fun field => (field.name, field.binding.default)

theorem names_allDefaults (fields : List Field) :
    Record.names (allDefaults fields) = fields.map name := by
  rw [Record.names, allDefaults, List.map_map]
  rfl

/-- The public ones of all values are those of the public fields. -/
theorem publicPart_allDefaults (distinct : (fields.map name).Nodup) :
    publicPart fields (allDefaults fields) = publicDefaults fields := by
  have found : ∀ field ∈ fields,
      Record.get? field.name (allDefaults fields) = some field.binding.default := by
    intro field member
    rw [← names_allDefaults] at distinct
    apply (Record.get?_eq_some_iff distinct).mpr
    exact List.mem_map_of_mem member
  clear distinct
  -- The record stays as it is, while the fields are gone through.
  generalize allDefaults fields = record at found
  induction fields with
  | nil => rfl
  | cons field fields ih =>
      obtain ⟨here, others⟩ := List.forall_mem_cons.mp found
      have behind := ih others
      obtain ⟨name, isPrivate, transform, binding⟩ := field
      rw [publicPart] at behind ⊢
      rw [List.filterMap_cons, here, publicDefaults, behind]
      cases isPrivate <;> rfl

/-- Fields that all have their defaults put these into the record one after another. -/
theorem evaluateAll_eq_insertAll {scope : Scope}
    (each : ∀ field ∈ fields, ∀ scope, field.evaluate document [] scope =
      .ok (Record.insert field.name field.binding.default scope.record)) :
    evaluateAll document fields [] scope =
      .ok (Record.insertAll scope.record (allDefaults fields)) := by
  induction fields generalizing scope with
  | nil => rfl
  | cons field fields ih =>
      obtain ⟨here, others⟩ := List.forall_mem_cons.mp each
      simp only [evaluateAll, here]
      exact ih others

end Field

namespace Field

/-- A field without transform puts its default into the record, if the schema of a child field has
its defaults for a record. -/
theorem evaluate_nil {field : Field} (declarative : field.isDeclarative = true)
    (children : ∀ selector schema, field.binding = .child selector schema → ∀ enclosing,
      schema.evaluate document [] enclosing = .ok schema.defaults) (scope : Scope) :
    field.evaluate document [] scope =
      .ok (Record.insert field.name field.binding.default scope.record) := by
  obtain ⟨unchanged, bound⟩ := isDeclarative_iff.mp declarative
  obtain ⟨name, isPrivate, transform, binding⟩ := field
  cases unchanged
  have given : binding.evaluate document [] scope = .ok (some binding.default) := by
    cases binding with
    | typed selector conversion fallback =>
        simp only [Binding.evaluate, selector.evaluate_nil]
        rfl
    | child selector schema =>
        rw [Binding.evaluate_eq_some_iff]
        have record := children selector schema rfl (scope.record :: scope.enclosing)
        cases array : selector.isArray with
        | false =>
            rw [Binding.default, array]
            exact .child array selector.select_nil record
        | true =>
            rw [Binding.default, array]
            exact .children array selector.select_nil .nil
    | constant value => rfl
    | method compute => cases bound
  simp only [Field.evaluate, given]
  rfl

end Field

namespace Schema

/-- Without nodes, a built schema has its defaults for a record, in whatever scope. -/
theorem Built.evaluate_nil {schema : Schema} (built : schema.Built) :
    schema.isDeclarative = true → ∀ enclosing,
      schema.evaluate document [] enclosing = .ok schema.defaults := by
  refine built.of_children ?_
  intro schema built children declarative enclosing
  have fields : Field.areDeclarative schema.fields = true := by
    cases schema
    exact declarative
  have each : ∀ field ∈ schema.fields, ∀ scope, field.evaluate document [] scope =
      .ok (Record.insert field.name field.binding.default scope.record) := by
    intro field member
    have own := Field.areDeclarative_iff.mp fields field member
    apply Field.evaluate_nil own
    intro selector child holds
    obtain ⟨-, bound⟩ := Field.isDeclarative_iff.mp own
    rw [holds] at bound
    obtain ⟨name, isPrivate, transform, binding⟩ := field
    cases holds
    exact children name isPrivate transform selector child member bound
  have distinct : (Record.names (Field.allDefaults schema.fields)).Nodup := by
    rw [Field.names_allDefaults]
    exact built.distinct
  have values : Field.evaluateAll document schema.fields [] ⟨[], enclosing⟩ =
      .ok (Field.allDefaults schema.fields) :=
    (Field.evaluateAll_eq_insertAll each).trans (congrArg _ (Record.ofList_eq distinct))
  apply built.evaluate_eq_ok_iff.mpr
  refine ⟨_, values, ?_⟩
  rw [Field.computeAll_eq_of_areDeclarative fields, Field.publicPart_allDefaults built.distinct]
  cases schema
  rfl

/-- The value of a single child field that finds no node is the record of its schema without
nodes. -/
theorem Built.get?_unmatched {schema : Schema} (built : schema.Built) {nodes : List Address}
    {enclosing : List (Record Value)} {record : Record Value}
    (evaluated : schema.evaluate document nodes enclosing = .ok record) {name : String}
    {selector : Selector} {child : Schema}
    (member : Field.mk name false none (.child selector child) ∈ schema.fields)
    (single : selector.isArray = false) (unmatched : selector.select document nodes = .ok [])
    (defaults : ∀ enclosing, child.evaluate document [] enclosing = .ok child.defaults) :
    Record.get? name record = some (.record child.defaults) := by
  obtain ⟨values, plain, rfl⟩ := built.evaluate_eq_ok_iff.mp evaluated
  obtain ⟨scope, value, found, given⟩ := built.exists_given plain member
  have shown := built.get?_publicPart plain member rfl found
  cases given with
  | child _ selected inner =>
      cases unmatched.symm.trans selected
      cases (defaults _).symm.trans inner
      exact shown
  | children array _ _ => cases single.symm.trans array

/-- A built schema without transforms and methods, at any depth, never fails for lack of nodes. At
no nodes it has its defaults for a record, in whatever scope. This is also its record for a document
in which its context selects nothing, and the record of a single child field with this schema that
finds no node; such a field never makes the schema around it fail. -/
theorem evaluate_without_nodes (document : Document) {schema : Schema} (built : schema.Built)
    (declarative : schema.isDeclarative = true) :
    (∀ enclosing, schema.evaluate document [] enclosing = .ok schema.defaults) ∧
    (∀ source path, Document.parse? source = some document → schema.context = some path →
      path.select document [] [] = .ok [] → schema.bind source = .ok schema.defaults) ∧
    ∀ selector nodes, selector.isArray = false → selector.select document nodes = .ok [] →
      (∀ name isPrivate transform scope,
        (Field.mk name isPrivate transform (.child selector schema)).evaluate document nodes scope =
          .ok (Record.insert name (applyTransform transform (.record schema.defaults) scope)
            scope.record)) ∧
      ∀ outer : Schema, outer.Built → ∀ name enclosing record,
        Field.mk name false none (.child selector schema) ∈ outer.fields →
          outer.evaluate document nodes enclosing = .ok record →
            Record.get? name record = some (.record schema.defaults) := by
  have defaults : ∀ enclosing, schema.evaluate document [] enclosing = .ok schema.defaults :=
    built.evaluate_nil declarative
  refine ⟨defaults, ?_, ?_⟩
  · intro source path parsed context unmatched
    simp only [bind, parsed, bindDocument, start, context, unmatched]
    exact defaults []
  · intro selector nodes single unmatched
    constructor
    · intro name isPrivate transform scope
      have given : (Binding.child selector schema).evaluate document nodes scope =
          .ok (some (.record schema.defaults)) :=
        Binding.evaluate_eq_some_iff.mpr (.child single unmatched (defaults _))
      simp only [Field.evaluate, given]
      rfl
    · intro outer outerBuilt name enclosing record member evaluated
      exact outerBuilt.get?_unmatched evaluated member single unmatched defaults

/-- Expressions that have no nodes, a format of no unit, and markup that has a value to stand in for
it; the record is that of a document without the context, and that of a child field at the root. -/
theorem evaluate_without_nodes_owner :
    let document : Document := ⟨[.element "a" [] [] "<a/>"], "<a/>"⟩
    let unknown : XPath.Expression := .call "f" []
    let absent : XPath.Expression := .path true [.mk .child (.name "b") []]
    let format : Duration.Format := .compile "\x7bX\x7d"
    let owner : Schema := mk none
      [.mk "name" false none (.typed ⟨unknown, none, false⟩ .text ⟨some (.text "nobody"), none⟩),
        .mk "source" false none (.typed ⟨absent, none, false⟩ .void ⟨some (.text "none"), none⟩)]
    let schema : Schema := mk (some absent)
      [.mk "lengths" false none (.typed ⟨unknown, some absent, true⟩ (.duration format) .none),
        .mk "length" false none (.typed ⟨absent, none, false⟩ (.duration format) .none),
        .mk "key" true none (.constant (.integer 1)),
        .mk "owner" false none (.child ⟨unknown, none, false⟩ owner),
        .mk "others" false none (.child ⟨absent, none, true⟩ owner)]
    let outer : Schema := mk none [.mk "inner" false none (.child ⟨absent, none, false⟩ schema)]
    schema.Built ∧ schema.isDeclarative = true ∧
      schema.defaults = [("lengths", .list []), ("length", .null),
        ("owner", .record [("name", .text "nobody"), ("source", .null)]), ("others", .list [])] ∧
      schema.evaluate document [] [] = .ok schema.defaults ∧
      schema.bind "<a/>" = .ok schema.defaults ∧ outer.Built ∧
      ∃ record, outer.evaluate document [[]] [] = .ok record ∧
        Record.get? "inner" record = some (.record schema.defaults) := by
  intro document unknown absent format owner schema outer
  let options (xpath : String) (isArray : Bool) : FieldOptions :=
    { FieldOptions.default with location := ⟨some xpath, none, none, false, isArray, none⟩ }
  have ownerBuilt : Draft.build ⟨none, none, [
      ⟨"name", .typed .text,
        { options "f()" false with fallback := ⟨some (.text "nobody"), none⟩ }⟩,
      ⟨"source", .typed .void,
        { options "/b" false with fallback := ⟨some (.text "none"), none⟩ }⟩]⟩ = .ok owner := by
    unfold owner absent unknown options
    rfl
  have schemaBuilt : Draft.build ⟨some "/b", none, [
      ⟨"lengths", .typed .duration, { options "f()" true with
        format := some "\x7bX\x7d"
        location := ⟨some "f()", none, none, false, true, some "/b"⟩ }⟩,
      ⟨"length", .typed .duration, { options "/b" false with format := some "\x7bX\x7d" }⟩,
      ⟨"key", .constant (.integer 1), { options "." false with isPrivate := true }⟩,
      ⟨"owner", .child owner, options "f()" false⟩,
      ⟨"others", .child owner, options "/b" true⟩]⟩ = .ok schema := by
    unfold schema owner absent unknown format options
    rfl
  have outerBuilt : Draft.build ⟨none, none, [⟨"inner", .child schema, options "/b" false⟩]⟩ =
      .ok outer := by
    unfold outer schema owner absent unknown format options
    rfl
  have ownerIs : owner.Built := by
    refine .build ?_ ownerBuilt
    simp only [List.mem_cons, List.not_mem_nil, or_false, forall_eq_or_imp, forall_eq,
      reduceCtorEq, false_implies, implies_true, and_self]
  have schemaIs : schema.Built := by
    refine .build ?_ schemaBuilt
    simp only [List.mem_cons, List.not_mem_nil, or_false, forall_eq_or_imp, forall_eq,
      reduceCtorEq, false_implies, implies_true, Content.child.injEq, forall_eq', ownerIs, and_self]
  have outerIs : outer.Built := by
    refine .build ?_ outerBuilt
    simp only [List.mem_cons, List.not_mem_nil, or_false, forall_eq,
      Content.child.injEq, forall_eq', schemaIs]
  obtain ⟨defaults, bound, children⟩ := evaluate_without_nodes document schemaIs rfl
  have evaluated : outer.evaluate document [[]] [] = .ok [("inner", .record schema.defaults)] := by
    unfold outer
    rfl
  obtain ⟨-, within⟩ := children ⟨absent, none, false⟩ [[]] rfl rfl
  exact ⟨schemaIs, rfl, rfl, defaults [], bound "<a/>" absent rfl rfl rfl, outerIs, _, evaluated,
    within outer outerIs "inner" [] _ List.mem_cons_self evaluated⟩

end Schema

end XmlRecords
