import XmlRecords.Proofs.Schema.PublicFields

/-! # The order of declaration

Transforms and methods are all that looks at a scope. In a schema without them, down to any depth,
the value of a field depends only on the nodes that the record is read from, although each field is
evaluated in the scope of those before it, and child schemas within this scope. The fields can be
declared in any order then: their values stay the same, and the record is put together in the new
order (`Schema.values_in_any_order`).
-/

namespace XmlRecords

mutual

/-- No field has a transform, and none is a method, at any depth. -/
def Schema.isDeclarative : Schema → Bool
  | .mk _ fields => Field.areDeclarative fields

def Field.areDeclarative : List Field → Bool
  | [] => true
  | field :: fields => field.isDeclarative && Field.areDeclarative fields

def Field.isDeclarative : Field → Bool
  | .mk _ _ transform binding => transform.isNone && binding.isDeclarative

def Binding.isDeclarative : Binding → Bool
  | .typed _ _ _ => true
  | .child _ schema => schema.isDeclarative
  | .constant _ => true
  | .method _ => false

end

namespace Field

theorem isDeclarative_iff {field : Field} :
    field.isDeclarative = true ↔
      field.transform = none ∧ field.binding.isDeclarative = true := by
  obtain ⟨name, isPrivate, transform, binding⟩ := field
  rw [isDeclarative, Bool.and_eq_true, Option.isNone_iff_eq_none]
  rfl

/-- The fields are declarative one by one. -/
theorem areDeclarative_iff {fields : List Field} :
    areDeclarative fields = true ↔ ∀ field ∈ fields, field.isDeclarative = true := by
  induction fields with
  | nil => exact ⟨fun _ => nofun, fun _ => rfl⟩
  | cons field fields ih => rw [areDeclarative, Bool.and_eq_true, ih, List.forall_mem_cons]

theorem isPlain_of_isDeclarative {field : Field} (declarative : field.isDeclarative = true) :
    field.isPlain = true := by
  obtain ⟨name, isPrivate, transform, binding⟩ := field
  obtain ⟨-, bound⟩ := isDeclarative_iff.mp declarative
  cases binding with
  | method compute => cases bound
  | _ => rfl

/-- Nothing is computed without a method. -/
theorem computeAll_eq_of_areDeclarative {fields : List Field}
    (declarative : areDeclarative fields = true) (enclosing : List (Record Value))
    (record : Record Value) : computeAll enclosing record fields = record := by
  induction fields with
  | nil => rfl
  | cons field fields ih =>
      obtain ⟨here, there⟩ := Bool.and_eq_true_iff.mp declarative
      rw [computeAll, compute_of_isPlain (isPlain_of_isDeclarative here)]
      exact ih there

end Field

-- Fields add to the record of their scope, so that this one has to be the same on both sides.
mutual

/-- Without transforms and methods nothing looks at the records around, at any depth. -/
theorem Schema.evaluate_congr_enclosing (document : Document) :
    (schema : Schema) → schema.isDeclarative = true → (nodes : List Address) →
      (enclosing others : List (Record Value)) →
        schema.evaluate document nodes enclosing = schema.evaluate document nodes others
  | .mk _ fields, declarative, nodes, enclosing, others => by
      simp only [Schema.evaluate, Field.computeAll_eq_of_areDeclarative declarative,
        Field.evaluateAll_congr_enclosing document fields declarative nodes [] enclosing others]

theorem Field.evaluateAll_congr_enclosing (document : Document) :
    (fields : List Field) → Field.areDeclarative fields = true → (nodes : List Address) →
      (record : Record Value) → (enclosing others : List (Record Value)) →
        Field.evaluateAll document fields nodes ⟨record, enclosing⟩ =
          Field.evaluateAll document fields nodes ⟨record, others⟩
  | [], _, _, _, _, _ => rfl
  | field :: fields, declarative, nodes, record, enclosing, others => by
      obtain ⟨here, there⟩ := Bool.and_eq_true_iff.mp declarative
      simp only [Field.evaluateAll,
        Field.evaluate_congr_enclosing document field here nodes record enclosing others,
        fun record => Field.evaluateAll_congr_enclosing document fields there nodes record
          enclosing others]

theorem Field.evaluate_congr_enclosing (document : Document) :
    (field : Field) → field.isDeclarative = true → (nodes : List Address) →
      (record : Record Value) → (enclosing others : List (Record Value)) →
        field.evaluate document nodes ⟨record, enclosing⟩ =
          field.evaluate document nodes ⟨record, others⟩
  | .mk _ _ none binding, declarative, nodes, record, enclosing, others => by
      simp only [Field.evaluate, applyTransform,
        Binding.evaluate_congr_scope document binding declarative nodes ⟨record, enclosing⟩
          ⟨record, others⟩]

/-- A binding of a declarative schema gives the same in every scope. -/
theorem Binding.evaluate_congr_scope (document : Document) :
    (binding : Binding) → binding.isDeclarative = true → (nodes : List Address) →
      (scope other : Scope) →
        binding.evaluate document nodes scope = binding.evaluate document nodes other
  | .typed _ _ _, _, _, _, _ => rfl
  | .child _ schema, declarative, nodes, scope, other => by
      simp only [Binding.evaluate,
        fun nodes => Schema.evaluate_congr_enclosing document schema declarative nodes
          (scope.record :: scope.enclosing) (other.record :: other.enclosing)]
  | .constant _, _, _, _, _ => rfl

end

namespace Field

variable {document : Document} {nodes : List Address}

/-- A field fails only if its binding does, as no transform can. -/
theorem evaluate_ok_iff {field : Field} {scope : Scope} :
    (∃ record, field.evaluate document nodes scope = .ok record) ↔
      ∃ own?, field.binding.evaluate document nodes scope = .ok own? := by
  obtain ⟨name, isPrivate, transform, binding⟩ := field
  simp only [evaluate, Outcome.bind_eq_ok, Field.binding]
  constructor
  · rintro ⟨_, own?, given, _⟩
    exact ⟨own?, given⟩
  · rintro ⟨own?, given⟩
    cases own? with
    | none => exact ⟨_, none, given, rfl⟩
    | some own => exact ⟨_, some own, given, rfl⟩

/-- Fields of a declarative schema have values if each of them has one by itself. -/
theorem evaluateAll_ok_iff {fields : List Field} (declarative : areDeclarative fields = true)
    (scope : Scope) :
    (∃ values, evaluateAll document fields nodes scope = .ok values) ↔
      ∀ field ∈ fields, ∃ own?, field.binding.evaluate document nodes ⟨[], []⟩ = .ok own? := by
  induction fields generalizing scope with
  | nil => exact ⟨fun _ => nofun, fun _ => ⟨scope.record, rfl⟩⟩
  | cons field fields ih =>
      obtain ⟨here, there⟩ := Bool.and_eq_true_iff.mp declarative
      have bound := (isDeclarative_iff.mp here).2
      rw [List.forall_mem_cons, ← field.binding.evaluate_congr_scope document bound nodes scope,
        ← evaluate_ok_iff]
      simp only [evaluateAll, Outcome.bind_eq_ok]
      constructor
      · rintro ⟨values, record, evaluated, onward⟩
        exact ⟨⟨record, evaluated⟩, (ih there _).mp ⟨values, onward⟩⟩
      · rintro ⟨⟨record, evaluated⟩, others⟩
        obtain ⟨values, onward⟩ := (ih there ⟨record, scope.enclosing⟩).mpr others
        exact ⟨values, record, evaluated, onward⟩

end Field

namespace Schema

variable {document : Document} {nodes : List Address} {enclosing : List (Record Value)}

/-- So a record is there just if each binding gives a value by itself, in whatever order. -/
theorem Built.evaluate_ok_iff {schema : Schema} (built : schema.Built)
    (declarative : schema.isDeclarative = true) :
    (∃ record, schema.evaluate document nodes enclosing = .ok record) ↔
      ∀ field ∈ schema.fields, ∃ own?,
        field.binding.evaluate document nodes ⟨[], []⟩ = .ok own? := by
  obtain ⟨context, fields⟩ := schema
  refine Iff.trans ?_ (Field.evaluateAll_ok_iff declarative ⟨[], enclosing⟩)
  simp only [built.evaluate_eq_ok_iff]
  constructor
  · rintro ⟨_, values, evaluated, _⟩
    exact ⟨values, evaluated⟩
  · rintro ⟨values, evaluated⟩
    exact ⟨_, values, evaluated, rfl⟩

/-- A public field has the value that its binding gives by itself. -/
theorem Built.exists_own_value {schema : Schema} (built : schema.Built)
    (declarative : schema.isDeclarative = true) {record : Record Value}
    (evaluated : schema.evaluate document nodes enclosing = .ok record) {field : Field}
    (member : field ∈ schema.fields) (shown : field.isPrivate = false) :
    ∃ value, Record.get? field.name record = some value ∧
      field.binding.evaluate document nodes ⟨[], []⟩ = .ok (some value) := by
  obtain ⟨values, plain, rfl⟩ := built.evaluate_eq_ok_iff.mp evaluated
  have here : field.isDeclarative = true := by
    obtain ⟨context, fields⟩ := schema
    exact Field.areDeclarative_iff.mp declarative field member
  obtain ⟨unchanged, bound⟩ := Field.isDeclarative_iff.mp here
  obtain ⟨seen, _, found, own, given, rfl⟩ :=
    built.exists_gives plain member (Field.isPlain_of_isDeclarative here)
  rw [unchanged] at found
  refine ⟨own, built.get?_publicPart plain member shown found, ?_⟩
  rw [field.binding.evaluate_congr_scope document bound nodes _ ⟨seen, enclosing⟩]
  exact Binding.evaluate_eq_some_iff.mpr given

/-- The order in which fields are declared does not matter where there are neither transforms nor
methods. With the fields in any other order a built schema is one still, it has a record from the
same nodes and within the same records, and each public field has the same value in both; only the
names come in the order of declaration. -/
theorem values_in_any_order (document : Document) {context : Option XPath.Expression}
    {fields others : List Field} (built : (mk context fields).Built)
    (declarative : (mk context fields).isDeclarative = true) (permuted : fields.Perm others)
    (nodes : List Address) (enclosing : List (Record Value)) :
    let schema := mk context fields
    let reordered := mk context others
    reordered.Built ∧
      ((∃ record, schema.evaluate document nodes enclosing = .ok record) ↔
        ∃ record, reordered.evaluate document nodes enclosing = .ok record) ∧
      ∀ record otherRecord, schema.evaluate document nodes enclosing = .ok record →
        reordered.evaluate document nodes enclosing = .ok otherRecord →
          (Record.names record = schema.publicNames ∧
            Record.names otherRecord = reordered.publicNames) ∧
          ∀ name ∈ schema.publicNames, ∃ value, Record.get? name record = some value ∧
            Record.get? name otherRecord = some value := by
  intro schema reordered
  have otherBuilt : reordered.Built := built.perm permuted
  have otherDeclarative : reordered.isDeclarative = true := by
    apply Field.areDeclarative_iff.mpr
    intro field member
    exact Field.areDeclarative_iff.mp declarative field (permuted.mem_iff.mpr member)
  refine ⟨otherBuilt, ?_, ?_⟩
  · rw [built.evaluate_ok_iff declarative, otherBuilt.evaluate_ok_iff otherDeclarative]
    exact forall_congr' fun field => imp_congr_left permuted.mem_iff
  · intro record otherRecord evaluated otherEvaluated
    have names := (built.listsPublic evaluated).names
    have otherNames := (otherBuilt.listsPublic otherEvaluated).names
    refine ⟨⟨names, otherNames⟩, ?_⟩
    intro name listed
    obtain ⟨field, kept, rfl⟩ := List.mem_map.mp listed
    obtain ⟨member, isPublic⟩ := List.mem_filter.mp kept
    have shown : field.isPrivate = false := (Bool.not_eq_true' _).mp isPublic
    obtain ⟨value, found, given⟩ := built.exists_own_value declarative evaluated member shown
    obtain ⟨other, otherFound, otherGiven⟩ := otherBuilt.exists_own_value otherDeclarative
      otherEvaluated (permuted.mem_iff.mp member) shown
    cases given.symm.trans otherGiven
    exact ⟨value, found, otherFound⟩

/-- A constant, a private field and a list of records, the other way round. -/
theorem values_in_any_order_reversed :
    let document : Document :=
      ⟨[.element "a" [] [.element "b" [⟨"id", "1"⟩] [] "", .element "b" [] [] ""] ""], ""⟩
    let id : Selector := ⟨.path false [.mk .attr (.name "id") []], none, false⟩
    let item : Schema := .mk none [.mk "id" false none (.typed id .integer .none)]
    let fields : List Field :=
      [.mk "kind" false none (.constant (.text "list")),
        .mk "own" true none (.typed id .text .none),
        .mk "items" false none
          (.child ⟨.path false [.mk .child (.name "b") []], none, true⟩ item)]
    let schema := mk none fields
    let reordered := mk none fields.reverse
    schema.Built ∧ schema.isDeclarative = true ∧ fields.Perm fields.reverse ∧
      ∃ record otherRecord value, schema.evaluate document [[.child 0]] [] = .ok record ∧
        reordered.evaluate document [[.child 0]] [] = .ok otherRecord ∧
        Record.names record = ["kind", "items"] ∧ Record.names otherRecord = ["items", "kind"] ∧
        Record.get? "items" record = some value ∧ Record.get? "items" otherRecord = some value := by
  intro document id item fields schema reordered
  let options (xpath : String) (isArray isPrivate : Bool) : FieldOptions :=
    ⟨⟨some xpath, none, none, false, isArray, none⟩, none, .none, isPrivate, none⟩
  have itemBuilt : Draft.build ⟨none, none, [⟨"id", .typed .integer, options "@id" false false⟩]⟩ =
      .ok item := by
    unfold item id options
    rfl
  have schemaBuilt : Draft.build ⟨none, none,
      [⟨"kind", .constant (.text "list"), options "." false false⟩,
        ⟨"own", .typed .text, options "@id" false true⟩,
        ⟨"items", .child item, options "b" true false⟩]⟩ = .ok schema := by
    unfold schema fields item id options
    rfl
  have inner : item.Built := by
    refine .build ?_ itemBuilt
    simp only [List.mem_singleton, forall_eq, reduceCtorEq, false_implies, implies_true]
  have built : schema.Built := by
    refine .build ?_ schemaBuilt
    simp only [List.mem_cons, List.not_mem_nil, or_false, forall_eq_or_imp, forall_eq,
      reduceCtorEq, false_implies, implies_true, Content.child.injEq, forall_eq', inner, and_self]
  have permuted : fields.Perm fields.reverse := fields.reverse_perm.symm
  have record : schema.evaluate document [[.child 0]] [] = .ok [("kind", .text "list"),
      ("items", .list [.record [("id", .integer 1)], .record [("id", .null)]])] := by
    unfold schema document fields item id
    rfl
  obtain ⟨-, together, agree⟩ :=
    values_in_any_order document built rfl permuted [[.child 0]] []
  obtain ⟨otherRecord, otherEvaluated⟩ := together.mp ⟨_, record⟩
  obtain ⟨⟨names, otherNames⟩, values⟩ := agree _ _ record otherEvaluated
  obtain ⟨value, found, otherFound⟩ := values "items" (by decide)
  exact ⟨built, rfl, permuted, _, otherRecord, value, record, otherEvaluated, names, otherNames,
    found, otherFound⟩

end Schema

end XmlRecords
