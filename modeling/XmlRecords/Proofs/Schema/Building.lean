import Mathlib.Data.List.Nodup
import Mathlib.Data.List.Perm.Basic
import XmlRecords.Proofs.Outcome
import XmlRecords.Schema.Declaration

/-! # Schemas that have been built

A schema is built from a draft, in which the schemas of child fields have been built before. What
the checks establish holds then at every depth; in particular, the fields of a schema have different
names (`Schema.Built.distinct`).
-/

namespace XmlRecords

namespace FieldDeclaration

/-- A field that is bound to a schema has been declared with it. -/
theorem content_of_bind {declared : FieldDeclaration} {selector : Selector} {schema : Schema}
    (bound : declared.bind = .ok (.child selector schema)) : declared.content = .child schema := by
  unfold bind at bound
  split at bound
  · simp only [Outcome.bind_eq_ok, Outcome.pure_eq_ok, reduceCtorEq, and_false,
      exists_false] at bound
  · rename_i child holds
    simp only [Outcome.bind_eq_ok, Outcome.pure_eq_ok, Binding.child.injEq] at bound
    obtain ⟨_, _, _, rfl⟩ := bound
    exact holds
  · cases bound
  · cases bound

/-- The declaration is built into the field. -/
def Builds (declared : FieldDeclaration) (field : Field) : Prop :=
  ∃ binding, declared.bind = .ok binding ∧
    field = .mk declared.name declared.options.isPrivate declared.options.transform binding

end FieldDeclaration

/-- Fields are built from their declarations one by one, if their names are new and each of them
comes once. -/
theorem buildFields_eq_ok_iff {seen : List String} {declarations : List FieldDeclaration}
    {fields : List Field} :
    buildFields seen declarations = .ok fields ↔
      List.Forall₂ FieldDeclaration.Builds declarations fields ∧
        (fields.map Field.name).Nodup ∧ ∀ field ∈ fields, field.name ∉ seen := by
  induction declarations generalizing seen fields with
  | nil =>
      rw [List.forall₂_nil_left_iff]
      constructor
      · rintro ⟨⟩
        exact ⟨rfl, List.nodup_nil, nofun⟩
      · rintro ⟨rfl, -, -⟩
        rfl
  | cons declared declarations ih =>
      rw [buildFields, List.forall₂_cons_left_iff]
      constructor
      · intro built
        split at built
        · cases built
        · rename_i new
          rw [List.contains_iff_mem] at new
          simp only [Outcome.bind_eq_ok, Outcome.pure_eq_ok] at built
          obtain ⟨binding, bound, others, built, rfl⟩ := built
          obtain ⟨builds, distinct, fresh⟩ := ih.mp built
          refine ⟨⟨_, others, ⟨binding, bound, rfl⟩, builds, rfl⟩,
            List.nodup_cons.mpr ⟨?_, distinct⟩,
            List.forall_mem_cons.mpr ⟨new, fun field member present => ?_⟩⟩
          · intro repeated
            obtain ⟨field, member, same⟩ := List.mem_map.mp repeated
            exact fresh field member (same ▸ List.mem_cons_self)
          · exact fresh field member (List.mem_cons_of_mem _ present)
      · rintro ⟨⟨field, others, ⟨binding, bound, rfl⟩, builds, rfl⟩, distinct, fresh⟩
        obtain ⟨new, fresh⟩ := List.forall_mem_cons.mp fresh
        obtain ⟨unlike, distinct⟩ := List.nodup_cons.mp distinct
        have built : buildFields (declared.name :: seen) declarations = .ok others := by
          refine ih.mpr ⟨builds, distinct, fun field member present => ?_⟩
          rcases List.mem_cons.mp present with same | present
          · exact unlike (List.mem_map.mpr ⟨field, member, same⟩)
          · exact fresh field member present
        have absent : ¬seen.contains declared.name = true := by rwa [List.contains_iff_mem]
        rw [if_neg absent]
        simp only [bound, built]
        rfl

namespace Schema

/-- The schema is the result of building a draft whose child fields have built schemas. -/
inductive Built : Schema → Prop where
  | build {draft : Draft} {schema : Schema}
      (children : ∀ declared ∈ draft.fields, ∀ child, declared.content = .child child →
        Built child)
      (built : draft.build = .ok schema) : Built schema

/-- A draft is built into a schema if its context and its fields are, and these have different
names. -/
theorem build_eq_ok_iff {draft : Draft} {schema : Schema} :
    draft.build = .ok schema ↔
      buildContext draft.context = .ok schema.context ∧
        List.Forall₂ FieldDeclaration.Builds draft.fields schema.fields ∧
          (schema.fields.map Field.name).Nodup := by
  obtain ⟨context, fields⟩ := schema
  simp only [Draft.build, Outcome.bind_eq_ok, Outcome.pure_eq_ok, mk.injEq, buildFields_eq_ok_iff,
    List.not_mem_nil, not_false_eq_true, implies_true, and_true]
  constructor
  · rintro ⟨_, contextBuilt, _, built, rfl, rfl⟩
    exact ⟨contextBuilt, built⟩
  · rintro ⟨contextBuilt, built⟩
    exact ⟨context, contextBuilt, fields, built, rfl, rfl⟩

/-- The child fields of a schema have been declared with their schemas. -/
theorem exists_content_of_build {draft : Draft} {schema : Schema}
    (built : draft.build = .ok schema) {name : String} {isPrivate : Bool}
    {transform : Option Transform} {selector : Selector} {child : Schema}
    (member : Field.mk name isPrivate transform (.child selector child) ∈ schema.fields) :
    ∃ declared ∈ draft.fields, declared.content = .child child := by
  obtain ⟨-, builds, -⟩ := build_eq_ok_iff.mp built
  obtain ⟨declared, inDraft, binding, bound, same⟩ := Outcome.exists_related builds member
  cases same
  exact ⟨declared, inDraft, FieldDeclaration.content_of_bind bound⟩

/-- A schema is built if its fields are, from declarations whose child schemas have been built. -/
theorem built_iff {schema : Schema} :
    schema.Built ↔ ∃ source declarations, buildContext source = .ok schema.context ∧
      List.Forall₂ FieldDeclaration.Builds declarations schema.fields ∧
      (schema.fields.map Field.name).Nodup ∧
      ∀ declared ∈ declarations, ∀ child, declared.content = .child child → child.Built := by
  constructor
  · intro built
    cases built with
    | @build draft _ children built =>
        obtain ⟨contextBuilt, builds, distinct⟩ := build_eq_ok_iff.mp built
        exact ⟨draft.context, draft.fields, contextBuilt, builds, distinct, children⟩
  · rintro ⟨source, declarations, contextBuilt, builds, distinct, children⟩
    have built : Draft.build ⟨source, none, declarations⟩ = .ok schema :=
      build_eq_ok_iff.mpr ⟨contextBuilt, builds, distinct⟩
    exact .build children built

namespace Built

variable {schema : Schema}

/-- The fields of a built schema have different names. -/
theorem distinct (built : schema.Built) : (schema.fields.map Field.name).Nodup := by
  obtain ⟨_, _, _, _, distinct, _⟩ := built_iff.mp built
  exact distinct

theorem child (built : schema.Built) {name : String} {isPrivate : Bool}
    {transform : Option Transform} {selector : Selector} {child : Schema}
    (member : Field.mk name isPrivate transform (.child selector child) ∈ schema.fields) :
    child.Built := by
  cases built with
  | build children built =>
      obtain ⟨declared, inDraft, holds⟩ := exists_content_of_build built member
      exact children declared inDraft child holds

/-- The fields of a built schema can be declared in any other order. -/
theorem perm {context : Option XPath.Expression} {fields others : List Field}
    (built : (mk context fields).Built) (permuted : fields.Perm others) :
    (mk context others).Built := by
  obtain ⟨source, declarations, contextBuilt, builds, distinct, children⟩ := built_iff.mp built
  have rebuilt : Relation.Comp List.Perm (List.Forall₂ FieldDeclaration.Builds) declarations
      others := by
    rw [← List.forall₂_comp_perm_eq_perm_comp_forall₂]
    exact ⟨fields, builds, permuted⟩
  obtain ⟨redeclared, rearranged, builds⟩ := rebuilt
  refine built_iff.mpr ⟨source, redeclared, contextBuilt, builds,
    (permuted.map Field.name).nodup_iff.mp distinct, ?_⟩
  intro declared member
  exact children declared (rearranged.mem_iff.mpr member)

/-- A property of built schemas is shown of each by showing it of the schemas of its child fields
first. -/
@[elab_as_elim]
theorem of_children {motive : Schema → Prop} (built : schema.Built)
    (step : ∀ schema : Schema, schema.Built →
      (∀ name isPrivate transform selector child,
        Field.mk name isPrivate transform (.child selector child) ∈ schema.fields →
          motive child) → motive schema) : motive schema := by
  induction built with
  | @build draft schema children built ih =>
      refine step schema (.build children built) ?_
      intro name isPrivate transform selector child member
      obtain ⟨declared, inDraft, holds⟩ := exists_content_of_build built member
      exact ih declared inDraft child holds

end Built

end Schema

end XmlRecords
