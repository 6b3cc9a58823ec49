import XmlRecords.Proofs.Schema.PublicFields

/-! # Private fields

That a field is private does not show while a record is put together: it is evaluated as any other,
its value is seen by all that see the record, and if it fails, the schema fails. Only at the end are
the private fields left out. The records of two schemas that differ in nothing but which of their
fields are private are therefore parts of one and the same list of values
(`Schema.privacy_only_projects`).
-/

namespace XmlRecords

namespace Field

/-- The same field as a public one. -/
def exposed : Field → Field
  | mk name _ transform binding => mk name false transform binding

theorem name_exposed (field : Field) : field.exposed.name = field.name := by
  cases field
  rfl

theorem isPrivate_exposed (field : Field) : field.exposed.isPrivate = false := by
  cases field
  rfl

/-- Making fields public leaves their names. -/
theorem map_name_exposed (fields : List Field) :
    (fields.map exposed).map name = fields.map name := by
  rw [List.map_map]
  exact List.map_congr_left fun field _ => field.name_exposed

section

variable {document : Document} {nodes : List Address}

/-- A field does not look at whether it is public when it is evaluated. -/
theorem evaluate_exposed (field : Field) (scope : Scope) :
    field.exposed.evaluate document nodes scope = field.evaluate document nodes scope := by
  cases field
  rfl

theorem compute_exposed (field : Field) (enclosing : List (Record Value))
    (record : Record Value) :
    field.exposed.compute enclosing record = field.compute enclosing record := by
  obtain ⟨name, isPrivate, transform, binding⟩ := field
  cases binding <;> rfl

/-- The fields see the same record before them, by induction along the list. -/
theorem evaluateAll_exposed (fields : List Field) (scope : Scope) :
    evaluateAll document (fields.map exposed) nodes scope =
      evaluateAll document fields nodes scope := by
  induction fields generalizing scope with
  | nil => rfl
  | cons field fields ih => simp only [List.map_cons, evaluateAll, evaluate_exposed, ih]

/-- So do the methods. -/
theorem computeAll_exposed (fields : List Field) (enclosing : List (Record Value))
    (record : Record Value) :
    computeAll enclosing record (fields.map exposed) = computeAll enclosing record fields := by
  induction fields generalizing record with
  | nil => rfl
  | cons field fields ih => simp only [List.map_cons, computeAll, compute_exposed, ih]

end

/-- The public fields with their values are those of all fields that have the name of a public
one. -/
theorem publicPart_eq_filter {fields : List Field} (distinct : (fields.map name).Nodup)
    (record : Record Value) :
    publicPart fields record =
      (publicPart (fields.map exposed) record).filter fun pair =>
        decide (pair.1 ∈ namesOf (fun field => !field.isPrivate) fields) := by
  unfold publicPart
  rw [List.filterMap_map, List.filter_filterMap]
  apply List.filterMap_congr
  intro field member
  have listed : field.name ∈ namesOf (fun field => !field.isPrivate) fields ↔
      (!field.isPrivate) = true := name_mem_namesOf distinct member
  simp only [Function.comp_apply, isPrivate_exposed, name_exposed, Bool.false_eq_true, ↓reduceIte]
  cases Record.get? field.name record with
  | none => simp only [Option.map_none, ite_self, Option.filter_none]
  | some value =>
      simp only [Option.map_some, Option.filter_some, listed]
      cases field.isPrivate <;> rfl

end Field

/-- The same declaration of a public field. -/
def FieldDeclaration.exposed (declared : FieldDeclaration) : FieldDeclaration :=
  { declared with options := { declared.options with isPrivate := false } }

/-- What builds a field builds it as a public one, if it is declared so. -/
theorem FieldDeclaration.Builds.exposed {declared : FieldDeclaration} {field : Field}
    (builds : declared.Builds field) : declared.exposed.Builds field.exposed := by
  obtain ⟨binding, bound, rfl⟩ := builds
  exact ⟨binding, bound, rfl⟩

namespace Schema

/-- The schema with all its own fields public; those of child schemas stay as they are. -/
def exposed : Schema → Schema
  | mk context fields => mk context (fields.map Field.exposed)

theorem publicNames_exposed (schema : Schema) :
    schema.exposed.publicNames = schema.fields.map Field.name := by
  obtain ⟨context, fields⟩ := schema
  have all : (fields.map Field.exposed).filter (fun field => !field.isPrivate) =
      fields.map Field.exposed := by
    apply List.filter_eq_self.mpr
    intro field member
    obtain ⟨original, -, rfl⟩ := List.mem_map.mp member
    rw [Field.isPrivate_exposed, Bool.not_false]
  rw [publicNames, exposed, Schema.fields, Schema.fields, all, Field.map_name_exposed]

namespace Built

variable {schema : Schema} (built : schema.Built)

include built

/-- The schema can be built with all its fields public. -/
theorem exposed : schema.exposed.Built := by
  obtain ⟨source, declarations, contextBuilt, builds, distinct, children⟩ := built_iff.mp built
  obtain ⟨context, fields⟩ := schema
  refine built_iff.mpr ⟨source, declarations.map .exposed, contextBuilt, ?_, ?_, ?_⟩
  · rw [List.forall₂_map_left_iff]
    apply List.forall₂_map_right_iff.mpr
    exact builds.imp fun _ _ => FieldDeclaration.Builds.exposed
  · change ((fields.map Field.exposed).map Field.name).Nodup
    rwa [Field.map_name_exposed]
  · intro declared member child holds
    obtain ⟨original, inDraft, rfl⟩ := List.mem_map.mp member
    exact children original inDraft child holds

/-- The record of a schema is the part of the record with all fields that the names of its public
fields make out. -/
theorem evaluate_eq_map (document : Document) (nodes : List Address)
    (enclosing : List (Record Value)) :
    schema.evaluate document nodes enclosing =
      (schema.exposed.evaluate document nodes enclosing).map fun all =>
        all.filter fun pair => decide (pair.1 ∈ schema.publicNames) := by
  rw [built.evaluate_eq, built.exposed.evaluate_eq]
  obtain ⟨context, fields⟩ := schema
  simp only [Schema.exposed, Schema.fields, Field.evaluateAll_exposed, Field.computeAll_exposed]
  cases Field.evaluateAll document fields nodes ⟨[], enclosing⟩ with
  | error cause => rfl
  | ok values =>
      exact congrArg Except.ok (Field.publicPart_eq_filter built.distinct _)

end Built

/-- Which fields of a schema are private shows only in what is left out of its record. Two schemas
that become the same when all their own fields are made public fail with the same error, or have a
record each. Both are then parts of one record with all the fields: what is left out of it are the
fields that are private in the schema, and nothing else. In particular, a field that is public in
both schemas has the same value in both records. -/
theorem privacy_only_projects (document : Document) {schema other : Schema}
    (built : schema.Built) (otherBuilt : other.Built) (same : schema.exposed = other.exposed)
    (nodes : List Address) (enclosing : List (Record Value)) :
    (∃ cause, schema.evaluate document nodes enclosing = .error cause ∧
      other.evaluate document nodes enclosing = .error cause) ∨
    ∃ all record otherRecord,
      schema.exposed.evaluate document nodes enclosing = .ok all ∧
        Record.names all = schema.fields.map Field.name ∧
        schema.evaluate document nodes enclosing = .ok record ∧
        (record = all.filter fun pair => decide (pair.1 ∈ schema.publicNames)) ∧
        other.evaluate document nodes enclosing = .ok otherRecord ∧
        (otherRecord = all.filter fun pair => decide (pair.1 ∈ other.publicNames)) ∧
        ∀ name ∈ schema.publicNames, name ∈ other.publicNames →
          ∃ value, Record.get? name record = some value ∧
            Record.get? name otherRecord = some value := by
  have first := built.evaluate_eq_map document nodes enclosing
  have second := otherBuilt.evaluate_eq_map document nodes enclosing
  rw [← same] at second
  cases evaluated : schema.exposed.evaluate document nodes enclosing with
  | error cause =>
      rw [evaluated] at first second
      exact .inl ⟨cause, first, second⟩
  | ok all =>
      rw [evaluated] at first second
      have names := (built.exposed.listsPublic evaluated).names
      rw [publicNames_exposed] at names
      refine .inr ⟨all, _, _, rfl, names, first, rfl, second, rfl, ?_⟩
      intro name shown otherShown
      have present : name ∈ Record.names all := by
        rw [names]
        exact Field.sublist_namesOf.subset shown
      obtain ⟨value, found⟩ := Record.exists_get? present
      refine ⟨value, ?_, ?_⟩
      · rwa [Record.get?_filter_of_mem shown]
      · rwa [Record.get?_filter_of_mem otherShown]

/-- The source of an element as a private field and as a public one, with a transform that copies it
and a method that counts all fields. -/
theorem privacy_only_projects_source :
    let document : Document := ⟨[.element "a" [] [] "<a/>"], ""⟩
    let size : Scope → Value := fun scope => .integer (Int64.ofNat scope.record.length)
    let own : Transform := fun _ scope => (scope.get? "source").getD .null
    let here : Selector := ⟨.path false [.here], none, false⟩
    let withSource (isPrivate : Bool) : Schema := mk none
      [.mk "size" false none (.method size),
        .mk "source" isPrivate none (.typed here .void .none),
        .mk "copy" false (some own) (.typed here .void .none)]
    let schema := withSource true
    let other := withSource false
    schema.Built ∧ other.Built ∧ schema.exposed = other.exposed ∧
      ∃ record otherRecord value, schema.evaluate document [[.child 0]] [] = .ok record ∧
        other.evaluate document [[.child 0]] [] = .ok otherRecord ∧
        Record.names record = ["size", "copy"] ∧
        Record.names otherRecord = ["size", "source", "copy"] ∧
        Record.get? "copy" record = some value ∧ Record.get? "copy" otherRecord = some value := by
  intro document size own here withSource schema other
  let options (isPrivate : Bool) (transform : Option Transform) : FieldOptions :=
    ⟨{ Location.default with xpath := some "." }, none, .none, isPrivate, transform⟩
  have built (isPrivate : Bool) : (withSource isPrivate).Built := by
    have same : Draft.build ⟨none, none, [⟨"size", .method size, .default⟩,
        ⟨"source", .typed .void, options isPrivate none⟩,
        ⟨"copy", .typed .void, options false (some own)⟩]⟩ = .ok (withSource isPrivate) := by
      unfold withSource here own size options
      cases isPrivate <;> rfl
    refine .build ?_ same
    simp only [List.mem_cons, List.not_mem_nil, or_false, forall_eq_or_imp, forall_eq,
      reduceCtorEq, false_implies, implies_true, and_self]
  have evaluated : schema.evaluate document [[.child 0]] [] =
      .ok [("size", .integer 2), ("copy", .markup "<a/>")] := by
    unfold schema withSource here document own size
    rfl
  have otherEvaluated : other.evaluate document [[.child 0]] [] =
      .ok [("size", .integer 2), ("source", .markup "<a/>"), ("copy", .markup "<a/>")] := by
    unfold other withSource here document own size
    rfl
  rcases privacy_only_projects document (built true) (built false) rfl [[.child 0]] [] with
    ⟨cause, failed, -⟩ | ⟨all, record, otherRecord, -, -, here, -, there, -, values⟩
  · cases failed.symm.trans evaluated
  · cases here.symm.trans evaluated
    cases there.symm.trans otherEvaluated
    obtain ⟨value, found, otherFound⟩ := values "copy" (by decide) (by decide)
    exact ⟨built true, built false, rfl, _, _, value, here, there, rfl, rfl, found, otherFound⟩

end Schema

end XmlRecords
