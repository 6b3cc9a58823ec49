import XmlRecords.Proofs.Schema.Refusals

/-! # Where fields are declared

A declaration is a tree: within a context there are further declarations, to any depth. A field
stands in all contexts around it, and is looked up from the innermost one if it has no context of
its own. The draft keeps a single context, which every declaration leaves as it was
(`Draft.declareAll_eq`), and so it comes to the same as the stack of the contexts around a field.
The schema that is declared is checked with these contexts (`Schema.declare_checks_in_order`).
-/

namespace XmlRecords

/-- A field and the contexts around its declaration, the innermost first. -/
structure Placement where
  around : List String
  declared : FieldDeclaration

namespace Placement

/-- The context that the field is looked up from: its own, or the innermost around it. -/
def context (placement : Placement) : Option String :=
  placement.declared.options.location.context.or placement.around.head?

/-- The field with the context that it is looked up from. -/
def effective (placement : Placement) : FieldDeclaration :=
  { placement.declared with
    options :=
      { placement.declared.options with
        location :=
          { placement.declared.options.location with context := placement.context } } }

end Placement

namespace Declaration

mutual

/-- The contexts of the whole schema that a declaration gives, in order. Those around it do not
matter. -/
def roots : Declaration → List String
  | .context xpath => [xpath]
  | .field _ => []
  | .within _ body => rootsOfAll body

/-- The contexts of the whole schema that declarations give, in order. -/
def rootsOfAll : List Declaration → List String
  | [] => []
  | declaration :: declarations => roots declaration ++ rootsOfAll declarations

end

mutual

/-- The fields of a declaration, in order, where there are contexts around it. -/
def placements (around : List String) : Declaration → List Placement
  | .context _ => []
  | .field declared => [⟨around, declared⟩]
  | .within xpath body => placementsOfAll (xpath :: around) body

/-- The fields of declarations that stand in the same contexts, in order. -/
def placementsOfAll (around : List String) : List Declaration → List Placement
  | [] => []
  | declaration :: declarations =>
      placements around declaration ++ placementsOfAll around declarations

end

/-- The fields that are declared, with the contexts that they are looked up from. -/
def fields (declarations : List Declaration) : List FieldDeclaration :=
  (placementsOfAll [] declarations).map Placement.effective

end Declaration

namespace Draft

mutual

/-- A declaration changes the context of the schema only if there is none, adds its fields, and
leaves the context that the next field is declared in. -/
theorem declare_eq (around : List String) (declaration : Declaration) (draft : Draft)
    (innermost : draft.inner = around.head?) :
    declare declaration draft =
      ⟨draft.context.or declaration.roots.head?, draft.inner,
        draft.fields ++ (declaration.placements around).map Placement.effective⟩ := by
  cases declaration with
  | context xpath =>
      rw [declare, Declaration.roots, Declaration.placements, List.map_nil, List.append_nil,
        List.head?_cons]
  | field declared =>
      rw [declare, Declaration.roots, Declaration.placements, List.head?_nil, Option.or_none,
        innermost]
      rfl
  | within xpath body =>
      rw [declare, Declaration.roots, Declaration.placements,
        declareAll_eq (xpath :: around) body _ rfl]

theorem declareAll_eq (around : List String) (declarations : List Declaration) (draft : Draft)
    (innermost : draft.inner = around.head?) :
    declareAll declarations draft =
      ⟨draft.context.or (Declaration.rootsOfAll declarations).head?, draft.inner,
        draft.fields ++
          (Declaration.placementsOfAll around declarations).map Placement.effective⟩ := by
  cases declarations with
  | nil =>
      rw [declareAll, Declaration.rootsOfAll, Declaration.placementsOfAll, List.head?_nil,
        Option.or_none, List.map_nil, List.append_nil]
  | cons declaration declarations =>
      have here := declare_eq around declaration draft innermost
      have restored : (declare declaration draft).inner = around.head? := by rw [here, innermost]
      rw [declareAll, declareAll_eq around declarations _ restored, here, Declaration.rootsOfAll,
        Declaration.placementsOfAll, List.head?_append, Option.or_assoc, List.map_append,
        List.append_assoc]

end

end Draft

namespace Schema

/-- What is declared is built from the first context of the whole schema, however deep it stands,
and from the fields in order, each with its own context or else the innermost around it. It is
built if that first context can be read, the names are different, and each field has the format
that its type needs and expressions that can be read. Otherwise the context is told, or else the
first field with a fault: its name has come before, its format is missing, its expression cannot be
read, or that of its context cannot. -/
theorem declare_checks_in_order (declarations : List Declaration) :
    let root := (Declaration.rootsOfAll declarations).head?
    let fields := Declaration.fields declarations
    (∀ schema, declare declarations = .ok schema ↔
      buildContext root = .ok schema.context ∧
        List.Forall₂ FieldDeclaration.Builds fields schema.fields ∧
          (schema.fields.map Field.name).Nodup) ∧
    ((∃ schema, declare declarations = .ok schema) ↔
      (∀ source ∈ root, IsExpression source) ∧
        (fields.map FieldDeclaration.name).Nodup ∧ ∀ declared ∈ fields, declared.IsBindable) ∧
    ∀ cause, declare declarations = .error cause ↔
      (∃ source ∈ root, ∃ reason, XPath.Expression.parse source = .error reason ∧
        cause = .expression "context" reason) ∨
      (∀ source ∈ root, IsExpression source) ∧
        Outcome.FirstFault FieldDeclaration.IsBuilt FieldDeclaration.IsRefused fields cause := by
  intro root fields
  have drafted : Draft.declareAll declarations .empty = ⟨root, none, fields⟩ :=
    Draft.declareAll_eq [] declarations .empty rfl
  simp only [declare, drafted]
  refine ⟨fun schema => build_eq_ok_iff, Draft.exists_build_iff, fun cause => ?_⟩
  rw [Draft.build_eq_error_iff, buildContext_eq_error_iff]

/-- Behind an inner context the outer one counts again, and behind that none. -/
example (declared : FieldDeclaration) (bare : declared.options.location.context = none) :
    (Declaration.fields [.within "a" [.within "b" [.context "r"], .field declared],
      .field declared]).map (fun field => field.options.location.context) = [some "a", none] := by
  simp [Declaration.fields, Declaration.placementsOfAll, Declaration.placements,
    Placement.effective, Placement.context, bare]

end Schema

end XmlRecords
