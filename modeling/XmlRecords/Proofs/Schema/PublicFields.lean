import XmlRecords.Proofs.Schema.History

/-! # The fields of a record

A record has the public fields of its schema, in the order of their declaration and each once,
although methods get their values after all other fields. The records of child fields have the
public fields of their own schemas, down to any depth (`Schema.record_lists_public_fields`). All
fields have a value when the public ones are taken out, and names do not come twice, so that taking
one out leaves the others as they are.
-/

namespace XmlRecords

namespace Field

variable {fields : List Field} {record : Record Value}

/-- The public fields with their values. -/
def publicPart (fields : List Field) (record : Record Value) : Record Value :=
  fields.filterMap fun field =>
    if field.isPrivate then none else (Record.get? field.name record).map (field.name, ·)

/-- Taking the public fields out one after another is looking each of them up. -/
theorem takePublic_eq (distinct : (fields.map name).Nodup) (record : Record Value) :
    takePublic fields record = publicPart fields record := by
  induction fields generalizing record with
  | nil => rfl
  | cons field fields ih =>
      obtain ⟨fresh, distinct⟩ := List.nodup_cons.mp distinct
      rw [takePublic, publicPart, List.filterMap_cons]
      cases hidden : field.isPrivate with
      | true => exact ih distinct record
      | false =>
          cases found : Record.get? field.name record with
          | none => exact ih distinct record
          | some value =>
              -- Taking out this field does not change what the others are.
              have others : publicPart fields (Record.remove field.name record) =
                  publicPart fields record := by
                refine List.filterMap_congr fun other member => ?_
                have different : other.name ≠ field.name :=
                  fun same => fresh (same ▸ List.mem_map_of_mem member)
                rw [Record.get?_remove_of_ne different]
              exact congrArg ((field.name, value) :: ·) ((ih distinct _).trans others)

theorem mem_publicPart {name : String} {value : Value} :
    (name, value) ∈ publicPart fields record ↔
      ∃ field ∈ fields, field.isPrivate = false ∧ field.name = name ∧
        Record.get? name record = some value := by
  rw [publicPart, List.mem_filterMap]
  refine exists_congr fun field => and_congr_right fun _ => ?_
  cases field.isPrivate with
  | true => simp only [↓reduceIte, reduceCtorEq, Bool.true_eq_false, false_and]
  | false =>
      simp only [Bool.false_eq_true, ↓reduceIte, Option.map_eq_some_iff, Prod.mk.injEq, true_and]
      constructor
      · rintro ⟨_, found, rfl, rfl⟩
        exact ⟨rfl, found⟩
      · rintro ⟨rfl, found⟩
        exact ⟨value, found, rfl, rfl⟩

/-- If all fields have values, the names of the public part are those of the public fields. -/
theorem names_publicPart (complete : ∀ field ∈ fields, field.name ∈ Record.names record) :
    Record.names (publicPart fields record) = namesOf (fun field => !field.isPrivate) fields := by
  induction fields with
  | nil => rfl
  | cons field fields ih =>
      obtain ⟨here, complete⟩ := List.forall_mem_cons.mp complete
      rw [publicPart, List.filterMap_cons]
      cases hidden : field.isPrivate with
      | true =>
          rw [namesOf_cons_of_neg (by rw [hidden]; rfl)]
          exact ih complete
      | false =>
          obtain ⟨value, found⟩ := Record.exists_get? here
          rw [namesOf_cons_of_pos (by rw [hidden]; rfl)]
          simp only [Bool.false_eq_true, ↓reduceIte, found, Option.map_some]
          exact congrArg (field.name :: ·) (ih complete)

/-- The names of plain fields and of methods are together those of all fields. -/
theorem perm_namesOf (fields : List Field) :
    (namesOf isPlain fields ++ namesOf isMethod fields).Perm (fields.map name) := by
  rw [namesOf, namesOf, ← List.map_append]
  exact (List.perm_append_comm.trans (List.filter_append_perm isMethod fields)).map name

end Field

namespace Schema

variable {document : Document} {nodes : List Address} {enclosing : List (Record Value)}

namespace Built

variable {schema : Schema} (built : schema.Built)

include built

theorem distinct_namesOf :
    (Field.namesOf Field.isPlain schema.fields ++
      Field.namesOf Field.isMethod schema.fields).Nodup :=
  (Field.perm_namesOf schema.fields).nodup_iff.mpr built.distinct

theorem distinct_publicNames : schema.publicNames.Nodup :=
  built.distinct.sublist Field.sublist_namesOf

/-- The plain values of a built schema are a history. -/
theorem history {values : Record Value}
    (evaluated : Field.evaluateAll document schema.fields nodes ⟨[], enclosing⟩ = .ok values) :
    Field.IsHistory Field.isPlain (Field.GivesChanged document nodes enclosing) schema.fields
      values :=
  Field.isHistory_of_evaluateAll built.distinct_namesOf.of_append_left evaluated

/-- A plain field has a value, which has been given by it. -/
theorem exists_gives {values : Record Value}
    (evaluated : Field.evaluateAll document schema.fields nodes ⟨[], enclosing⟩ = .ok values)
    {field : Field} (member : field ∈ schema.fields) (plain : field.isPlain = true) :
    ∃ seen value, Record.get? field.name values = some value ∧
      Field.GivesChanged document nodes enclosing field seen value := by
  have history := built.history evaluated
  have distinct := built.distinct_namesOf.of_append_left
  rw [← history.names] at distinct
  exact history.exists_gives distinct member plain

/-- The plain values of a built schema, with those of its methods behind them. -/
theorem exists_values {values : Record Value}
    (evaluated : Field.evaluateAll document schema.fields nodes ⟨[], enclosing⟩ = .ok values) :
    ∃ computed, Field.computeAll enclosing values schema.fields = values ++ computed ∧
      Record.names values = Field.namesOf Field.isPlain schema.fields ∧
      Record.names computed = Field.namesOf Field.isMethod schema.fields ∧
      (Record.names (values ++ computed)).Nodup := by
  have distinct := built.distinct_namesOf
  have names := (built.history evaluated).names
  rw [← names] at distinct
  obtain ⟨computed, same, computedNames⟩ := Field.exists_of_computeAll enclosing values distinct
  refine ⟨computed, same, names, computedNames, ?_⟩
  rwa [Record.names_append, computedNames]

theorem names_publicPart {values : Record Value}
    (evaluated : Field.evaluateAll document schema.fields nodes ⟨[], enclosing⟩ = .ok values) :
    Record.names (Field.publicPart schema.fields
      (Field.computeAll enclosing values schema.fields)) = schema.publicNames := by
  obtain ⟨computed, same, plainNames, computedNames, -⟩ := built.exists_values evaluated
  refine Field.names_publicPart fun field member => ?_
  rw [same, Record.names_append, plainNames, computedNames,
    (Field.perm_namesOf schema.fields).mem_iff]
  exact List.mem_map_of_mem member

/-- The record of a built schema is the public part of its plain values and those of its methods. -/
theorem evaluate_eq :
    schema.evaluate document nodes enclosing =
      Field.evaluateAll document schema.fields nodes ⟨[], enclosing⟩ >>= fun values =>
        .ok (Field.publicPart schema.fields
          (Field.computeAll enclosing values schema.fields)) := by
  have evaluate : schema.evaluate document nodes enclosing =
      Field.evaluateAll document schema.fields nodes ⟨[], enclosing⟩ >>= fun values =>
        .ok (Record.ofList (Field.takePublic schema.fields
          (Field.computeAll enclosing values schema.fields))) := by
    obtain ⟨context, fields⟩ := schema
    rw [Schema.evaluate]
    rfl
  rw [evaluate]
  cases evaluated : Field.evaluateAll document schema.fields nodes ⟨[], enclosing⟩ with
  | error cause => rfl
  | ok values =>
      have distinct : (Record.names (Field.publicPart schema.fields
          (Field.computeAll enclosing values schema.fields))).Nodup := by
        rw [built.names_publicPart evaluated]
        exact built.distinct_publicNames
      refine congrArg Except.ok ?_
      rw [Field.takePublic_eq built.distinct, Record.ofList_eq distinct]

theorem evaluate_eq_ok_iff {record : Record Value} :
    schema.evaluate document nodes enclosing = .ok record ↔
      ∃ values, Field.evaluateAll document schema.fields nodes ⟨[], enclosing⟩ = .ok values ∧
        Field.publicPart schema.fields (Field.computeAll enclosing values schema.fields) =
          record := by
  simp only [built.evaluate_eq, Outcome.bind_eq_ok, Except.ok.injEq]

end Built

/-- The names of a record are those of the public fields, in their order. Each comes once, and none
is that of a private field. -/
structure ListsPublic (schema : Schema) (record : Record Value) : Prop where
  names : Record.names record = schema.publicNames
  once : (Record.names record).Nodup
  withoutPrivate : ∀ field ∈ schema.fields, field.isPrivate = true →
    field.name ∉ Record.names record

mutual

/-- A record lists the public fields of its schema, and so do the records of its child fields; what
a transform has changed may be anything. -/
inductive Shapes : Schema → Record Value → Prop where
  | intro {schema : Schema} {record : Record Value} (listed : schema.ListsPublic record)
      (children : ∀ name isPrivate selector child value,
        Field.mk name isPrivate none (.child selector child) ∈ schema.fields →
          Record.get? name record = some value →
            ShapesChild selector.isArray child value) : Shapes schema record

/-- The value of a child field is a record of its schema, or a list of such records. -/
inductive ShapesChild : (isArray : Bool) → Schema → Value → Prop where
  | single {child : Schema} {record : Record Value} (shaped : Shapes child record) :
      ShapesChild false child (.record record)
  | list {child : Schema} {records : List (Record Value)}
      (shaped : ∀ record ∈ records, Shapes child record) :
      ShapesChild true child (.list (records.map .record))

end

theorem Built.listsPublic {schema : Schema} (built : schema.Built) {record : Record Value}
    (evaluated : schema.evaluate document nodes enclosing = .ok record) :
    schema.ListsPublic record := by
  obtain ⟨values, plain, rfl⟩ := built.evaluate_eq_ok_iff.mp evaluated
  have names := built.names_publicPart plain
  refine ⟨names, names ▸ built.distinct_publicNames, fun field member hidden listed => ?_⟩
  rw [names] at listed
  have shown := (Field.name_mem_namesOf built.distinct member).mp listed
  rw [hidden] at shown
  cases shown

/-- What is given for a child field is made of records that its schema evaluates to. -/
theorem shapesChild_of_gives {scope : Scope} {selector : Selector} {child : Schema} {value : Value}
    (each : ∀ nodes enclosing record, child.evaluate document nodes enclosing = .ok record →
      child.Shapes record)
    (given : (Binding.child selector child).Gives document nodes scope value) :
    ShapesChild selector.isArray child value := by
  cases given with
  | child single selected evaluated =>
      rw [single]
      exact .single (each _ _ _ evaluated)
  | children array selected evaluated =>
      rw [array]
      refine .list fun record member => ?_
      obtain ⟨node, -, here⟩ := Outcome.exists_related evaluated member
      exact each _ _ _ here

/-- The value of a child field whose value is not changed, among the plain values. -/
theorem Built.exists_given {schema : Schema} (built : schema.Built) {values : Record Value}
    (evaluated : Field.evaluateAll document schema.fields nodes ⟨[], enclosing⟩ = .ok values)
    {name : String} {isPrivate : Bool} {selector : Selector} {child : Schema}
    (member : Field.mk name isPrivate none (.child selector child) ∈ schema.fields) :
    ∃ scope value, Record.get? name values = some value ∧
      (Binding.child selector child).Gives document nodes scope value := by
  obtain ⟨seen, value, found, own, given, rfl⟩ := built.exists_gives evaluated member rfl
  exact ⟨_, _, found, given⟩

/-- A value in the record is the plain value, if the field has one. -/
theorem Built.get?_publicPart {schema : Schema} (built : schema.Built) {values : Record Value}
    (evaluated : Field.evaluateAll document schema.fields nodes ⟨[], enclosing⟩ = .ok values)
    {field : Field} (member : field ∈ schema.fields) (shown : field.isPrivate = false)
    {value : Value} (found : Record.get? field.name values = some value) :
    Record.get? field.name (Field.publicPart schema.fields
      (Field.computeAll enclosing values schema.fields)) = some value := by
  obtain ⟨computed, same, -, -, -⟩ := built.exists_values evaluated
  have names := built.names_publicPart evaluated
  rw [Record.get?_eq_some_iff (names ▸ built.distinct_publicNames), Field.mem_publicPart, same]
  exact ⟨field, member, shown, rfl, Record.get?_append_of_some found computed⟩

theorem Built.shapes {schema : Schema} (built : schema.Built) :
    ∀ nodes enclosing record, schema.evaluate document nodes enclosing = .ok record →
      schema.Shapes record := by
  refine built.of_children ?_
  intro schema built children nodes enclosing record evaluated
  have listed := built.listsPublic evaluated
  refine .intro listed fun name isPrivate selector child value member found => ?_
  obtain ⟨values, plain, rfl⟩ := built.evaluate_eq_ok_iff.mp evaluated
  obtain ⟨scope, own, held, given⟩ := built.exists_given plain member
  obtain ⟨computed, same, -, -, -⟩ := built.exists_values plain
  obtain ⟨_, _, _, _, shown⟩ :=
    Field.mem_publicPart.mp ((Record.get?_eq_some_iff listed.once).mp found)
  rw [same, Record.get?_append_of_some held computed] at shown
  cases shown
  exact shapesChild_of_gives (children name isPrivate none selector child member) given

/-- A record has exactly the public fields of its schema, in the order of their declaration. The
records of child fields that no transform changes have the public fields of the child schemas, at
every depth. This holds of the private child fields too, among the values that the other fields
see. -/
theorem record_lists_public_fields (document : Document) {schema : Schema} (built : schema.Built)
    (nodes : List Address) (enclosing : List (Record Value)) :
    (∀ record, schema.evaluate document nodes enclosing = .ok record →
      schema.ListsPublic record ∧ schema.Shapes record) ∧
    ∀ values, Field.evaluateAll document schema.fields nodes ⟨[], enclosing⟩ = .ok values →
      ∀ name isPrivate selector child,
        Field.mk name isPrivate none (.child selector child) ∈ schema.fields →
          ∃ value, Record.get? name values = some value ∧
            ShapesChild selector.isArray child value := by
  constructor
  · exact fun record evaluated =>
      ⟨built.listsPublic evaluated, built.shapes nodes enclosing record evaluated⟩
  · intro values evaluated name isPrivate selector child member
    obtain ⟨scope, value, found, given⟩ := built.exists_given evaluated member
    exact ⟨value, found, shapesChild_of_gives (built.child member).shapes given⟩

/-- A method that is declared first, a private list of records, and a record with a private
field. -/
theorem record_lists_public_fields_items :
    let document : Document :=
      ⟨[.element "a" [] [.element "b" [⟨"id", "1"⟩] [] "", .element "b" [] [] ""] ""], ""⟩
    let size : Scope → Value := fun scope => .integer (Int64.ofNat scope.record.length)
    let items : XPath.Expression := .path false [.mk .child (.name "b") []]
    let item : Schema := .mk none
      [.mk "source" true none (.typed ⟨.path false [.here], none, false⟩ .void .none),
        .mk "id" false none
          (.typed ⟨.path false [.mk .attr (.name "id") []], none, false⟩ .integer .none)]
    let schema : Schema := .mk none
      [.mk "size" false none (.method size),
        .mk "all" true none (.child ⟨items, none, true⟩ item),
        .mk "first" false none (.child ⟨items, none, false⟩ item)]
    schema.Built ∧
      (∃ record, schema.evaluate document [[.child 0]] [] = .ok record ∧
        Record.names record = ["size", "first"] ∧ schema.ListsPublic record ∧
          schema.Shapes record) ∧
      ∃ values value,
        Field.evaluateAll document schema.fields [[.child 0]] ⟨[], []⟩ = .ok values ∧
          Record.get? "all" values = some value ∧ ShapesChild true item value := by
  intro document size items item schema
  let options (xpath : String) (isArray isPrivate : Bool) : FieldOptions :=
    ⟨⟨some xpath, none, none, false, isArray, none⟩, none, .none, isPrivate, none⟩
  have itemBuilt : Draft.build ⟨none, none, [⟨"source", .typed .void, options "." false true⟩,
      ⟨"id", .typed .integer, options "@id" false false⟩]⟩ = .ok item := by
    unfold item options
    rfl
  have schemaBuilt : Draft.build ⟨none, none, [⟨"size", .method size, options "." false false⟩,
      ⟨"all", .child item, options "b" true true⟩,
      ⟨"first", .child item, options "b" false false⟩]⟩ = .ok schema := by
    unfold schema items item size options
    rfl
  have inner : item.Built := by
    refine .build ?_ itemBuilt
    simp only [List.mem_cons, List.not_mem_nil, or_false, forall_eq_or_imp, forall_eq,
      reduceCtorEq, false_implies, implies_true, and_self]
  have built : schema.Built := by
    refine .build ?_ schemaBuilt
    simp only [List.mem_cons, List.not_mem_nil, or_false, forall_eq_or_imp, forall_eq,
      reduceCtorEq, false_implies, implies_true, Content.child.injEq, forall_eq', inner, and_self]
  have evaluated : schema.evaluate document [[.child 0]] [] = .ok [("size", .integer 2),
      ("first", .record [("id", .integer 1)])] := by
    unfold schema document items item size
    rfl
  have plain : Field.evaluateAll document schema.fields [[.child 0]] ⟨[], []⟩ =
      .ok [("all", .list [.record [("id", .integer 1)], .record [("id", .null)]]),
        ("first", .record [("id", .integer 1)])] := by
    unfold schema document items item size
    rfl
  obtain ⟨lists, children⟩ := record_lists_public_fields document built [[.child 0]] []
  obtain ⟨value, found, shaped⟩ := children _ plain "all" true _ item
    (List.mem_cons_of_mem _ List.mem_cons_self)
  exact ⟨built, ⟨_, evaluated, rfl, lists _ evaluated⟩, _, value, plain, found, shaped⟩
end Schema

end XmlRecords
