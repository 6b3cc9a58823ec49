import XmlRecords.Proofs.Schema.PublicFields

/-! # What fields see of a record

A transform and a child schema see the values of the fields before their own, and a method sees all
values but those of the methods behind it (`Schema.fields_see_earlier_values`). The values of fields
do not depend on what is declared behind them then: a schema with more fields at its end gives the
same values to all fields but methods, or fails in the same way.
-/

namespace XmlRecords

namespace Schema

variable {document : Document} {nodes : List Address} {enclosing : List (Record Value)}

/-- The record is made of the plain values and those of methods, which are a history each. -/
theorem Built.exists_histories {schema : Schema} (built : schema.Built) {values : Record Value}
    (evaluated : Field.evaluateAll document schema.fields nodes ⟨[], enclosing⟩ = .ok values) :
    Field.IsHistory Field.isPlain (Field.GivesChanged document nodes enclosing) schema.fields
        values ∧
      ∃ computed, Field.IsHistory Field.isMethod (Field.GivesComputed enclosing values)
          schema.fields computed ∧
        schema.evaluate document nodes enclosing =
          .ok (Field.publicPart schema.fields (values ++ computed)) := by
  have distinct := built.distinct_namesOf
  rw [← (built.history evaluated).names] at distinct
  obtain ⟨computed, same, -, -, -⟩ := built.exists_values evaluated
  refine ⟨built.history evaluated, computed, Field.isHistory_of_computeAll distinct same, ?_⟩
  exact built.evaluate_eq_ok_iff.mpr ⟨values, evaluated, congrArg _ same⟩

/-- A schema fails if one of its fields does, after those before it have got their values. -/
theorem Built.exists_failure {schema : Schema} (built : schema.Built) {cause : BindingError}
    (failed : Field.evaluateAll document schema.fields nodes ⟨[], enclosing⟩ = .error cause) :
    schema.evaluate document nodes enclosing = .error cause ∧
      ∃ before field behind seen, schema.fields = before ++ field :: behind ∧
        Field.IsHistory Field.isPlain (Field.GivesChanged document nodes enclosing) before seen ∧
          field.binding.Fails document nodes ⟨seen, enclosing⟩ cause := by
  constructor
  · rw [built.evaluate_eq, failed]
    rfl
  · obtain ⟨before, field, behind, seen, split, earlier, here⟩ :=
      Field.exists_of_evaluateAll_eq_error failed
    have distinct := built.distinct_namesOf.of_append_left
    rw [split, Field.namesOf_append] at distinct
    exact ⟨before, field, behind, seen, split,
      Field.isHistory_of_evaluateAll distinct.of_append_left earlier,
      Field.evaluate_eq_error_iff.mp here⟩

section Longer

variable {schema longer : Schema} {more : List Field}
  (extended : longer.fields = schema.fields ++ more)

include extended

theorem evaluateAll_longer :
    Field.evaluateAll document longer.fields nodes ⟨[], enclosing⟩ =
      Field.evaluateAll document schema.fields nodes ⟨[], enclosing⟩ >>= fun values =>
        Field.evaluateAll document more nodes ⟨values, enclosing⟩ := by
  rw [extended, Field.evaluateAll_append]

/-- The values of fields do not change when there are more fields behind them. -/
theorem Built.prefix_of_longer (built : schema.Built) (longerBuilt : longer.Built)
    {values longerValues : Record Value}
    (evaluated : Field.evaluateAll document schema.fields nodes ⟨[], enclosing⟩ = .ok values)
    (longerEvaluated : Field.evaluateAll document longer.fields nodes ⟨[], enclosing⟩ =
      .ok longerValues) : values <+: longerValues := by
  rw [evaluateAll_longer extended, evaluated] at longerEvaluated
  have distinct := longerBuilt.distinct_namesOf.of_append_left
  rw [extended, Field.namesOf_append, ← (built.history evaluated).names] at distinct
  obtain ⟨rest, rfl, -⟩ := Field.exists_of_evaluateAll values distinct longerEvaluated
  exact List.prefix_append values rest

theorem Built.exists_same_value (built : schema.Built) (longerBuilt : longer.Built)
    {record longerRecord : Record Value}
    (evaluated : schema.evaluate document nodes enclosing = .ok record)
    (longerEvaluated : longer.evaluate document nodes enclosing = .ok longerRecord)
    {field : Field} (member : field ∈ schema.fields) (plain : field.isPlain = true)
    (shown : field.isPrivate = false) :
    ∃ value, Record.get? field.name record = some value ∧
      Record.get? field.name longerRecord = some value := by
  obtain ⟨values, first, rfl⟩ := built.evaluate_eq_ok_iff.mp evaluated
  obtain ⟨longerValues, second, rfl⟩ := longerBuilt.evaluate_eq_ok_iff.mp longerEvaluated
  obtain ⟨_, value, found, -⟩ := built.exists_gives first member plain
  obtain ⟨rest, rfl⟩ := built.prefix_of_longer extended longerBuilt first second
  have longerMember : field ∈ longer.fields := extended ▸ List.mem_append_left more member
  exact ⟨value, built.get?_publicPart first member shown found,
    longerBuilt.get?_publicPart second longerMember shown
      (Record.get?_append_of_some found rest)⟩

end Longer

/-- Fields see the values of the fields before them. In an evaluation of a built schema, from any
nodes and within any records, each field but a method gets the value of its binding, changed by its
transform; both are given within a scope of exactly the values of such fields before it, with the
records around the schema around them, and a child schema is evaluated within this scope. A method
is computed from all these values and those of the methods before it. If a field fails, the same
holds of the fields before it and of the scope that it fails in. More fields behind those of a
schema neither change the values of fields other than methods nor the error that these fail with. -/
theorem fields_see_earlier_values (document : Document) {schema : Schema} (built : schema.Built)
    (nodes : List Address) (enclosing : List (Record Value)) :
    let plainValues (schema : Schema) :=
      Field.evaluateAll document schema.fields nodes ⟨[], enclosing⟩
    let isPlainHistory :=
      Field.IsHistory Field.isPlain (Field.GivesChanged document nodes enclosing)
    (∀ values, plainValues schema = .ok values →
      isPlainHistory schema.fields values ∧
        ∃ computed, Field.IsHistory Field.isMethod (Field.GivesComputed enclosing values)
            schema.fields computed ∧
          schema.evaluate document nodes enclosing =
            .ok (Field.publicPart schema.fields (values ++ computed))) ∧
    (∀ cause, plainValues schema = .error cause →
      schema.evaluate document nodes enclosing = .error cause ∧
        ∃ before field behind seen, schema.fields = before ++ field :: behind ∧
          isPlainHistory before seen ∧
            field.binding.Fails document nodes ⟨seen, enclosing⟩ cause) ∧
    ∀ (longer : Schema) more, longer.Built → longer.fields = schema.fields ++ more →
      (∀ values longerValues, plainValues schema = .ok values →
        plainValues longer = .ok longerValues → values <+: longerValues) ∧
      (∀ record longerRecord, schema.evaluate document nodes enclosing = .ok record →
        longer.evaluate document nodes enclosing = .ok longerRecord →
          ∀ field ∈ schema.fields, field.isPlain = true → field.isPrivate = false →
            ∃ value, Record.get? field.name record = some value ∧
              Record.get? field.name longerRecord = some value) ∧
      ∀ cause, plainValues schema = .error cause →
        longer.evaluate document nodes enclosing = .error cause := by
  intro plainValues isPlainHistory
  refine ⟨fun values => built.exists_histories, fun cause => built.exists_failure, ?_⟩
  intro longer more longerBuilt extended
  refine ⟨fun values longerValues => built.prefix_of_longer extended longerBuilt, ?_, ?_⟩
  · intro record longerRecord evaluated longerEvaluated field member plain shown
    exact built.exists_same_value extended longerBuilt evaluated longerEvaluated member plain shown
  · intro cause failed
    refine (longerBuilt.exists_failure ?_).1
    rw [evaluateAll_longer extended]
    exact Outcome.bind_eq_error.mpr (.inl failed)

/-- A private field is seen by the transform and by the child schema behind it, and a method sees
all fields. With one more field only the method gives another value; with one that fails, the schema
fails. -/
theorem fields_see_earlier_values_source :
    let document : Document := ⟨[.element "a" [] [] "<a/>"], ""⟩
    let length : Scope → Value := fun scope => .integer (Int64.ofNat scope.record.length)
    let own : Transform := fun _ scope => (scope.get? "source").getD .null
    let around : Transform := fun _ scope =>
      (scope.parent?.bind fun parent => parent.get? "source").getD .null
    let here : Selector := ⟨.path false [.here], none, false⟩
    let child : Schema := .mk none [.mk "outer" false (some around) (.typed here .void .none)]
    let fields : List Field :=
      [.mk "length" false none (.method length), .mk "source" true none (.typed here .void .none),
        .mk "copy" false (some own) (.typed here .void .none),
        .mk "inner" false none (.child here child)]
    let schema : Schema := .mk none fields
    let longer : Schema := .mk none (fields ++ [.mk "late" false none (.constant .null)])
    let broken : Schema := .mk none (fields ++
      [.mk "late" false none (.typed ⟨.call "f" [], none, false⟩ .void .none)])
    let inner : Value := .record [("outer", .markup "<a/>")]
    (schema.Built ∧ ∃ values computed,
      Field.evaluateAll document fields [[.child 0]] ⟨[], []⟩ = .ok values ∧
        Field.IsHistory Field.isPlain (Field.GivesChanged document [[.child 0]] []) fields values ∧
        Field.IsHistory Field.isMethod (Field.GivesComputed [] values) fields computed) ∧
    (broken.Built ∧ ∃ cause before field behind seen,
      broken.evaluate document [[.child 0]] [] = .error cause ∧
        broken.fields = before ++ field :: behind ∧
        Field.IsHistory Field.isPlain (Field.GivesChanged document [[.child 0]] []) before seen ∧
        field.binding.Fails document [[.child 0]] ⟨seen, []⟩ cause) ∧
    (longer.Built ∧ ∃ record longerRecord value,
      schema.evaluate document [[.child 0]] [] = .ok record ∧
        longer.evaluate document [[.child 0]] [] = .ok longerRecord ∧
        record = [("length", .integer 3), ("copy", .markup "<a/>"), ("inner", inner)] ∧
        longerRecord = [("length", .integer 4), ("copy", .markup "<a/>"), ("inner", inner),
          ("late", .null)] ∧
        Record.get? "copy" record = some value ∧ Record.get? "copy" longerRecord = some value) := by
  intro document length own around here child fields schema longer broken inner
  let located (xpath : String) (isPrivate : Bool) (transform : Option Transform) : FieldOptions :=
    ⟨{ Location.default with xpath := some xpath }, none, .none, isPrivate, transform⟩
  let declared (last : List FieldDeclaration) : Draft := ⟨none, none,
    [⟨"length", .method length, .default⟩,
      ⟨"source", .typed .void, located "." true none⟩,
      ⟨"copy", .typed .void, located "." false (some own)⟩,
      ⟨"inner", .child child, located "." false none⟩] ++ last⟩
  have childBuilt : child.Built := by
    have same : Draft.build ⟨none, none,
        [⟨"outer", .typed .void, located "." false (some around)⟩]⟩ = .ok child := by
      unfold child around located
      rfl
    refine .build ?_ same
    simp only [List.mem_cons, List.not_mem_nil, or_false, forall_eq, reduceCtorEq, false_implies,
      implies_true]
  have built (last : List FieldDeclaration) {schema : Schema}
      (same : (declared last).build = .ok schema)
      (leaves : ∀ field ∈ last, ∀ child, field.content ≠ .child child) : schema.Built := by
    refine .build ?_ same
    simp only [declared, List.mem_append, List.mem_cons, List.not_mem_nil, or_false, or_imp,
      forall_and, forall_eq, reduceCtorEq, false_implies, implies_true, Content.child.injEq,
      forall_eq', childBuilt, true_and]
    exact fun field member child same => absurd same (leaves field member child)
  have schemaSame : (declared []).build = .ok schema := by
    unfold schema fields declared child around own length here located
    rfl
  have longerSame : (declared [⟨"late", .constant .null, .default⟩]).build =
      .ok longer := by
    unfold longer fields declared child around own length here located
    rfl
  have brokenSame : (declared [⟨"late", .typed .void, located "f()" false none⟩]).build =
      .ok broken := by
    unfold broken fields declared child around own length here located
    rfl
  have schemaBuilt : schema.Built := built _ schemaSame (by simp)
  have longerBuilt : longer.Built := built _ longerSame (by simp)
  have brokenBuilt : broken.Built := built _ brokenSame (by simp)
  have evaluated : schema.evaluate document [[.child 0]] [] = .ok [("length", .integer 3),
      ("copy", .markup "<a/>"), ("inner", inner)] := by
    unfold schema fields document child around own length here inner
    rfl
  have longerEvaluated : longer.evaluate document [[.child 0]] [] = .ok [("length", .integer 4),
      ("copy", .markup "<a/>"), ("inner", inner), ("late", .null)] := by
    unfold longer fields document child around own length here inner
    rfl
  have values : Field.evaluateAll document fields [[.child 0]] ⟨[], []⟩ =
      .ok [("source", .markup "<a/>"), ("copy", .markup "<a/>"), ("inner", inner)] := by
    unfold fields document child around own length here inner
    rfl
  have failed : Field.evaluateAll document broken.fields [[.child 0]] ⟨[], []⟩ =
      .error (.evaluation (.unknownFunction "f")) := by
    unfold broken fields document child around own length here
    rfl
  obtain ⟨histories, -, longerFields⟩ :=
    fields_see_earlier_values document schemaBuilt [[.child 0]] []
  obtain ⟨-, failures, -⟩ := fields_see_earlier_values document brokenBuilt [[.child 0]] []
  obtain ⟨history, computed, methods, -⟩ := histories _ values
  obtain ⟨same, before, field, behind, seen, parts⟩ := failures _ failed
  obtain ⟨value, found, longerFound⟩ := (longerFields longer _ longerBuilt rfl).2.1 _ _ evaluated
    longerEvaluated (.mk "copy" false (some own) (.typed here .void .none))
    (List.mem_cons_of_mem _ (List.mem_cons_of_mem _ List.mem_cons_self)) rfl rfl
  exact ⟨⟨schemaBuilt, _, computed, values, history, methods⟩,
    ⟨brokenBuilt, _, before, field, behind, seen, same, parts⟩,
    longerBuilt, _, _, value, evaluated, longerEvaluated, rfl, rfl, found, longerFound⟩

end Schema

end XmlRecords
