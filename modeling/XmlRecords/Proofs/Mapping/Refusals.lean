import XmlRecords.Mapping.Building
import XmlRecords.Proofs.Schema.Refusals

/-! # Why the schema of a mapping is not built

The nodes of a mapping are a level, and so are those within a `child` node of a level; nodes within
other nodes are not looked at. The declarations of a level are made before it is built, and to
declare a `child` node is to build the level within it. So the nodes of a level are told for what
their declarations need first, to any depth; then the context is read, and only then the names, the
formats and the expressions are looked at (`Mapping.build_tells_first_fault`).
-/

namespace XmlRecords

namespace FieldType

/-- A type is found by its name, and by no other text. -/
theorem ofName?_eq_some_iff {given : String} {type : FieldType} :
    ofName? given = some type ↔ given = type.name := by
  constructor
  · intro found
    have named := List.find?_some found
    exact (of_decide_eq_true named).symm
  · rintro rfl
    cases type <;> rfl

/-- Types are told apart by their names. -/
theorem name_injective : Function.Injective name := by
  intro first second same
  have found := ofName?_eq_some_iff.mpr (Eq.refl first.name)
  exact Option.some.inj (found.symm.trans (ofName?_eq_some_iff.mpr same))

/-- No type has the name that stands for child schemas. -/
theorem name_ne_child (type : FieldType) : type.name ≠ "child" := by
  cases type <;> decide

/-- No type has the name that stands for constants. -/
theorem name_ne_constant (type : FieldType) : type.name ≠ "constant" := by
  cases type <;> decide

end FieldType

namespace Mapping

namespace Settings

/-- The type is `child`, `constant` or that of a field. -/
def HasKnownType (settings : Settings) : Prop :=
  settings.type = "child" ∨ settings.type = "constant" ∨
    ∃ type : FieldType, settings.type = type.name

/-- What the declaration of a node needs, apart from the nodes within it. -/
structure IsDeclarable (settings : Settings) : Prop where
  type : settings.HasKnownType
  value : settings.type = "constant" → ∃ value, settings.value = some value

/-- The node has the format that its type needs. -/
def HasFormat (settings : Settings) : Prop :=
  ∀ type : FieldType, settings.type = type.name → type.requiresFormat = true →
    ∃ source, settings.format = some source

/-- The expressions of the node can be read. A constant has none. -/
def IsFound (settings : Settings) : Prop :=
  settings.type ≠ "constant" → settings.options.location.IsReadable settings.name

/-- What the declaration of a node needs is not there. -/
inductive DeclarationFault (settings : Settings) : BindingError → Prop
  | value (constant : settings.type = "constant") (absent : settings.value = none) :
      DeclarationFault settings (.missingValue settings.name)
  | type (unknown : ¬settings.HasKnownType) :
      DeclarationFault settings (.unknownType settings.type)

/-- The format that a node needs is not there; or it is, and an expression cannot be read. -/
inductive Fault (settings : Settings) : BindingError → Prop
  | format {type : FieldType} (typed : settings.type = type.name)
      (required : type.requiresFormat = true) (absent : settings.format = none) :
      Fault settings (.missingFormat type)
  | location {cause : BindingError} (other : settings.type ≠ "constant")
      (format : settings.HasFormat) (fault : settings.options.location.Fault settings.name cause) :
      Fault settings cause

section

variable {settings : Settings} {declared : FieldDeclaration} {cause : BindingError}

/-- A constant is declared if the node has a value. Of its other settings only the privacy counts.
-/
theorem constant_eq_ok_iff :
    settings.constant = .ok declared ↔
      ∃ value, settings.value = some value ∧
        ⟨settings.name, .constant (Value.ofJson value),
          { FieldOptions.default with isPrivate := settings.isPrivate }⟩ = declared := by
  rw [constant]
  cases settings.value with
  | none => simp only [reduceCtorEq, false_and, exists_false]
  | some value => simp only [Except.ok.injEq, Option.some.injEq, exists_eq_left']

/-- A constant without a value is refused by name. -/
theorem constant_eq_error_iff :
    settings.constant = .error cause ↔
      settings.value = none ∧ cause = .missingValue settings.name := by
  rw [constant]
  cases settings.value with
  | none => simp only [Except.error.injEq, true_and, eq_comm]
  | some value => simp only [reduceCtorEq, false_and]

/-- A typed field is declared if its type is known, with all settings of the node as options. -/
theorem typed_eq_ok_iff :
    settings.typed = .ok declared ↔
      ∃ type : FieldType, settings.type = type.name ∧
        ⟨settings.name, .typed type, settings.options⟩ = declared := by
  simp only [typed, ← FieldType.ofName?_eq_some_iff]
  cases FieldType.ofName? settings.type with
  | none => simp only [reduceCtorEq, false_and, exists_false]
  | some type => simp only [Except.ok.injEq, Option.some.injEq, exists_eq_left']

/-- A type that is not known is refused as it is written. -/
theorem typed_eq_error_iff :
    settings.typed = .error cause ↔
      (¬∃ type : FieldType, settings.type = type.name) ∧
        cause = .unknownType settings.type := by
  simp only [typed, ← FieldType.ofName?_eq_some_iff]
  cases FieldType.ofName? settings.type with
  | none => simp only [Except.error.injEq, reduceCtorEq, exists_false, not_false_eq_true, true_and,
      eq_comm]
  | some type => simp only [reduceCtorEq, Option.some.injEq, exists_eq', not_true_eq_false,
      false_and]

end

/-- The field is a declaration of a node with these settings. -/
inductive Declares (settings : Settings) : FieldDeclaration → Prop
  | child {schema : Schema} (type : settings.type = "child") :
      Declares settings ⟨settings.name, .child schema, settings.options⟩
  | constant {value : Value} {options : FieldOptions} (type : settings.type = "constant") :
      Declares settings ⟨settings.name, .constant value, options⟩
  | typed {type : FieldType} (named : settings.type = type.name) :
      Declares settings ⟨settings.name, .typed type, settings.options⟩

namespace Declares

variable {settings : Settings} {declared : FieldDeclaration} {cause : BindingError}

theorem name (declares : settings.Declares declared) : declared.name = settings.name := by
  cases declares <;> rfl

/-- What a node declares is a typed field exactly if its type is the name of one. -/
theorem content_eq_typed_iff (declares : settings.Declares declared) {type : FieldType} :
    declared.content = .typed type ↔ settings.type = type.name := by
  cases declares with
  | child isChild =>
      refine ⟨nofun, fun named => (type.name_ne_child (named.symm.trans isChild)).elim⟩
  | constant isConstant =>
      refine ⟨nofun, fun named => (type.name_ne_constant (named.symm.trans isConstant)).elim⟩
  | @typed other named =>
      rw [named, FieldType.name_injective.eq_iff, Content.typed.injEq]

/-- All but constants are looked up in the document. -/
theorem isLocated_iff (declares : settings.Declares declared) :
    declared.content.IsLocated ↔ settings.type ≠ "constant" := by
  cases declares with
  | child isChild =>
      rw [isChild]
      exact iff_of_true trivial (by decide)
  | constant isConstant => exact iff_of_false id (absurd isConstant)
  | @typed type named =>
      rw [named]
      exact iff_of_true trivial type.name_ne_constant

theorem options_eq (declares : settings.Declares declared) (located : declared.content.IsLocated) :
    declared.options = settings.options := by
  cases declares with
  | child => rfl
  | constant => exact located.elim
  | typed => rfl

theorem format_eq (declares : settings.Declares declared) {type : FieldType}
    (typed : declared.content = .typed type) : declared.options.format = settings.format := by
  have located : declared.content.IsLocated := typed ▸ trivial
  rw [declares.options_eq located]
  rfl

/-- The format that the declared field needs is the one that the node needs. -/
theorem hasFormat_iff (declares : settings.Declares declared) :
    (∀ type, declared.content = .typed type → type.requiresFormat = true →
      ∃ source, declared.options.format = some source) ↔ settings.HasFormat := by
  refine forall_congr' fun type => ?_
  rw [← declares.content_eq_typed_iff]
  refine forall_congr' fun typed => ?_
  rw [declares.format_eq typed]

/-- A declared field can be bound if the node has its format and its expressions can be read. -/
theorem isBindable_iff (declares : settings.Declares declared) :
    declared.IsBindable ↔ settings.HasFormat ∧ settings.IsFound := by
  have found : (declared.content.IsLocated → declared.options.location.IsReadable declared.name) ↔
      settings.IsFound := by
    rw [IsFound, ← declares.isLocated_iff, declares.name]
    refine forall_congr' fun located => ?_
    rw [declares.options_eq located]
  rw [← declares.hasFormat_iff, ← found]
  exact ⟨fun bindable => ⟨bindable.format, bindable.location⟩, fun both => ⟨both.1, both.2⟩⟩

/-- A declared field fails for the reason that the node has. -/
theorem fault_iff (declares : settings.Declares declared) :
    declared.Fault cause ↔ settings.Fault cause := by
  constructor
  · rintro (⟨typed, required, absent⟩ | ⟨located, format, fault⟩)
    · exact .format (declares.content_eq_typed_iff.mp typed) required
        (declares.format_eq typed ▸ absent)
    · rw [declares.options_eq located, declares.name] at fault
      exact .location (declares.isLocated_iff.mp located) (declares.hasFormat_iff.mp format) fault
  · rintro (⟨named, required, absent⟩ | ⟨other, format, fault⟩)
    · have typed := declares.content_eq_typed_iff.mpr named
      exact .format typed required ((declares.format_eq typed).trans absent)
    · have located := declares.isLocated_iff.mpr other
      refine .location located (declares.hasFormat_iff.mpr format) ?_
      rw [declares.options_eq located, declares.name]
      exact fault

end Declares

end Settings

namespace NodeMapping

/-- The name of a node. -/
def name (node : NodeMapping) : String :=
  node.settings.name

end NodeMapping

/-- The nodes are a level of nodes: these themselves, or those within a `child` node of a level. -/
inductive IsLevel : List NodeMapping → List NodeMapping → Prop
  | own {nodes : List NodeMapping} : IsLevel nodes nodes
  | within {nodes level : List NodeMapping} {node : NodeMapping} (member : node ∈ nodes)
      (child : node.settings.type = "child") (inside : IsLevel node.nodes level) :
      IsLevel nodes level

/-- The nodes of a level have different names, and each of them what it needs. -/
structure IsSoundLevel (level : List NodeMapping) : Prop where
  distinct : (level.map NodeMapping.name).Nodup
  declarable : ∀ node ∈ level, node.settings.IsDeclarable
  format : ∀ node ∈ level, node.settings.HasFormat
  found : ∀ node ∈ level, node.settings.IsFound

/-- The nodes are sound at every level. -/
def IsValid (nodes : List NodeMapping) : Prop :=
  ∀ level, IsLevel nodes level → IsSoundLevel level

/-- A list of nodes is valid if its own level is sound and the nodes of its child schemas are valid.
-/
theorem isValid_iff {nodes : List NodeMapping} :
    IsValid nodes ↔
      IsSoundLevel nodes ∧
        ∀ node ∈ nodes, node.settings.type = "child" → IsValid node.nodes := by
  constructor
  · intro valid
    refine ⟨valid nodes .own, fun node member child level inside => ?_⟩
    exact valid level (.within member child inside)
  · rintro ⟨own, within⟩ level inside
    cases inside with
    | own => exact own
    | within member child inside => exact within _ member child level inside

namespace NodeMapping

/-- The node has what its declaration needs, and so have the nodes within it. -/
structure IsDeclarable (node : NodeMapping) : Prop where
  settings : node.settings.IsDeclarable
  within : node.settings.type = "child" → IsValid node.nodes

/-- The name of the node is new, and it has its format and its expressions. -/
structure IsBuilt (before : List NodeMapping) (node : NodeMapping) : Prop where
  new : node.name ∉ before.map name
  format : node.settings.HasFormat
  found : node.settings.IsFound

/-- The name of the node is not new; or it is, and its format or an expression is not there. -/
inductive IsRefused (before : List NodeMapping) (node : NodeMapping) : BindingError → Prop
  | repeated (again : node.name ∈ before.map name) :
      IsRefused before node (.repeatedField node.name)
  | unbound {cause : BindingError} (new : node.name ∉ before.map name)
      (fault : node.settings.Fault cause) : IsRefused before node cause

end NodeMapping

/-- The fault that is told of a mapping. That of the first node that cannot be declared comes first,
which is a fault of the mapping within it for a `child` node, then that of the context, and then
that of the first node with a fault of another kind. -/
inductive Fault : Mapping → BindingError → Prop
  | declaration {context : Option String} {before behind : List NodeMapping} {node : NodeMapping}
      {cause : BindingError} (earlier : ∀ other ∈ before, other.IsDeclarable)
      (fault : node.settings.DeclarationFault cause) :
      Fault ⟨context, before ++ node :: behind⟩ cause
  | child {context : Option String} {before behind : List NodeMapping} {node : NodeMapping}
      {cause : BindingError} (earlier : ∀ other ∈ before, other.IsDeclarable)
      (child : node.settings.type = "child") (fault : Fault ⟨none, node.nodes⟩ cause) :
      Fault ⟨context, before ++ node :: behind⟩ cause
  | context {source : String} {nodes : List NodeMapping} {cause : XPath.Error}
      (declarable : ∀ node ∈ nodes, node.IsDeclarable)
      (unreadable : XPath.Expression.parse source = .error cause) :
      Fault ⟨some source, nodes⟩ (.expression "context" cause)
  | node {context : Option String} {nodes : List NodeMapping} {cause : BindingError}
      (declarable : ∀ node ∈ nodes, node.IsDeclarable)
      (readable : ∀ source ∈ context, IsExpression source)
      (first : Outcome.FirstFault NodeMapping.IsBuilt NodeMapping.IsRefused nodes cause) :
      Fault ⟨context, nodes⟩ cause

section Declaring

variable {node : NodeMapping} {cause : BindingError}

/-- How a node is declared depends on its type: a child schema is built first, by the same rules. -/
theorem declaration_eq :
    node.declaration =
      if node.settings.type = "child" then do
        let schema ← Mapping.build ⟨none, node.nodes⟩
        return ⟨node.settings.name, .child schema, node.settings.options⟩
      else if node.settings.type = "constant" then
        node.settings.constant
      else
        node.settings.typed := by
  obtain ⟨settings, nodes⟩ := node
  simp only [NodeMapping.declaration, NodeMapping.settings, NodeMapping.nodes, build]
  cases NodeMapping.declarations nodes <;> rfl

/-- A declaration that was made holds what the node says. -/
theorem declares_of_declaration {declared : FieldDeclaration}
    (made : node.declaration = .ok declared) : node.settings.Declares declared := by
  rw [declaration_eq] at made
  by_cases child : node.settings.type = "child"
  · rw [if_pos child] at made
    simp only [Outcome.bind_eq_ok, Outcome.pure_eq_ok] at made
    obtain ⟨schema, -, rfl⟩ := made
    exact .child child
  rw [if_neg child] at made
  by_cases constant : node.settings.type = "constant"
  · rw [if_pos constant] at made
    obtain ⟨value, -, rfl⟩ := Settings.constant_eq_ok_iff.mp made
    exact .constant constant
  · rw [if_neg constant] at made
    obtain ⟨type, named, rfl⟩ := Settings.typed_eq_ok_iff.mp made
    exact .typed named

/-- A node is declared if its own settings allow for it and, for a child schema, its nodes do. -/
theorem exists_declaration_iff :
    (∃ declared, node.declaration = .ok declared) ↔
      node.settings.IsDeclarable ∧ (node.settings.type = "child" →
        ∃ schema, Mapping.build ⟨none, node.nodes⟩ = .ok schema) := by
  rw [declaration_eq]
  by_cases child : node.settings.type = "child"
  · rw [if_pos child]
    simp only [Outcome.bind_eq_ok, Outcome.pure_eq_ok]
    constructor
    · rintro ⟨_, schema, built, -⟩
      refine ⟨⟨.inl child, fun constant => ?_⟩, fun _ => ⟨schema, built⟩⟩
      exact absurd (child.symm.trans constant) (by decide)
    · rintro ⟨-, within⟩
      obtain ⟨schema, built⟩ := within child
      exact ⟨_, schema, built, rfl⟩
  rw [if_neg child]
  by_cases constant : node.settings.type = "constant"
  · rw [if_pos constant]
    simp only [Settings.constant_eq_ok_iff]
    constructor
    · rintro ⟨_, value, given, -⟩
      exact ⟨⟨.inr (.inl constant), fun _ => ⟨value, given⟩⟩, (absurd · child)⟩
    · rintro ⟨⟨-, value⟩, -⟩
      obtain ⟨value, given⟩ := value constant
      exact ⟨_, value, given, rfl⟩
  · rw [if_neg constant]
    simp only [Settings.typed_eq_ok_iff]
    constructor
    · rintro ⟨_, type, named, -⟩
      exact ⟨⟨.inr (.inr ⟨type, named⟩), (absurd · constant)⟩, (absurd · child)⟩
    · rintro ⟨⟨isChild | isConstant | ⟨type, named⟩, -⟩, -⟩
      · exact (child isChild).elim
      · exact (constant isConstant).elim
      · exact ⟨_, type, named, rfl⟩

/-- A declaration fails for its own settings or, for a child schema, as the child schema fails. -/
theorem declaration_eq_error_iff :
    node.declaration = .error cause ↔
      node.settings.DeclarationFault cause ∨
        node.settings.type = "child" ∧ Mapping.build ⟨none, node.nodes⟩ = .error cause := by
  rw [declaration_eq]
  by_cases child : node.settings.type = "child"
  · rw [if_pos child]
    simp only [Outcome.bind_eq_error, pure, Except.pure, reduceCtorEq, and_false, exists_false,
      or_false]
    constructor
    · exact fun failed => .inr ⟨child, failed⟩
    · rintro ((⟨constant, -⟩ | unknown) | ⟨-, failed⟩)
      · exact absurd (child.symm.trans constant) (by decide)
      · exact (unknown (.inl child)).elim
      · exact failed
  rw [if_neg child]
  by_cases constant : node.settings.type = "constant"
  · rw [if_pos constant, Settings.constant_eq_error_iff]
    constructor
    · rintro ⟨absent, rfl⟩
      exact .inl (.value constant absent)
    · rintro ((⟨-, absent⟩ | unknown) | ⟨isChild, -⟩)
      · exact ⟨absent, rfl⟩
      · exact (unknown (.inr (.inl constant))).elim
      · exact (child isChild).elim
  · rw [if_neg constant, Settings.typed_eq_error_iff]
    constructor
    · rintro ⟨unnamed, rfl⟩
      refine .inl (.type ?_)
      rintro (isChild | isConstant | named)
      · exact child isChild
      · exact constant isConstant
      · exact unnamed named
    · rintro ((⟨isConstant, -⟩ | unknown) | ⟨isChild, -⟩)
      · exact (constant isConstant).elim
      · exact ⟨fun named => unknown (.inr (.inr named)), rfl⟩
      · exact (child isChild).elim

end Declaring

/-- Nodes are declared one after the other, up to the first that cannot be. -/
theorem declarations_eq (nodes : List NodeMapping) :
    NodeMapping.declarations nodes = do
      return (← nodes.mapM NodeMapping.declaration).map .field := by
  induction nodes with
  | nil => rfl
  | cons node nodes ih =>
      rw [NodeMapping.declarations, ih, List.mapM_cons]
      cases node.declaration with
      | error cause => rfl
      | ok declared => cases nodes.mapM NodeMapping.declaration <;> rfl

/-- Fields that are declared outside all contexts keep their options. -/
theorem declareAll_fields (fields : List FieldDeclaration) {context : Option String}
    {before : List FieldDeclaration} :
    Draft.declareAll (fields.map .field) ⟨context, none, before⟩ =
      ⟨context, none, before ++ fields⟩ := by
  induction fields generalizing before with
  | nil => rw [List.append_nil]; rfl
  | cons declared fields ih =>
      have unchanged : declared.options.within none = declared.options := by
        rw [FieldOptions.within, Option.or_none]
      rw [List.map_cons, Draft.declareAll, Draft.declare, unchanged, ih, List.append_assoc]
      rfl

/-- The nodes of a mapping are declared, and then built. -/
theorem build_eq (mapping : Mapping) :
    mapping.build = mapping.nodes.mapM NodeMapping.declaration >>= fun fields =>
      Draft.build ⟨mapping.context, none, fields⟩ := by
  obtain ⟨context, nodes⟩ := mapping
  simp only [build, declarations_eq, bind_assoc, pure_bind]
  refine bind_congr fun fields => ?_
  cases context with
  | none => rw [Schema.declare, Draft.empty, declareAll_fields, List.nil_append]
  | some source =>
      simp only [Schema.declare, Draft.declareAll, Draft.declare, Draft.empty, Option.none_or,
        declareAll_fields, List.nil_append]

section Declared

variable {nodes : List NodeMapping} {fields : List FieldDeclaration} {cause : BindingError}

theorem forall₂_declares (made : nodes.mapM NodeMapping.declaration = .ok fields) :
    List.Forall₂ (fun node declared => node.settings.Declares declared) nodes fields :=
  (Outcome.mapM_eq_ok_iff.mp made).imp fun _ _ => declares_of_declaration

/-- Declared fields keep the names of their nodes, in order. -/
theorem names_of_declares
    (declares : List.Forall₂ (fun node declared => node.settings.Declares declared) nodes fields) :
    fields.map FieldDeclaration.name = nodes.map NodeMapping.name := by
  induction declares with
  | nil => rfl
  | cons here _ ih => rw [List.map_cons, List.map_cons, here.name, ih, NodeMapping.name]

theorem forall_isBindable_iff
    (declares : List.Forall₂ (fun node declared => node.settings.Declares declared) nodes fields) :
    (∀ declared ∈ fields, declared.IsBindable) ↔
      ∀ node ∈ nodes, node.settings.HasFormat ∧ node.settings.IsFound := by
  induction declares with
  | nil => exact iff_of_true (List.forall_mem_nil _) (List.forall_mem_nil _)
  | cons here _ ih => rw [List.forall_mem_cons, List.forall_mem_cons, here.isBindable_iff, ih]

section

variable {node : NodeMapping} {declared : FieldDeclaration}

theorem name_mem_iff
    (declares : List.Forall₂ (fun node declared => node.settings.Declares declared) nodes fields)
    (here : node.settings.Declares declared) :
    declared.name ∈ fields.map FieldDeclaration.name ↔ node.name ∈ nodes.map NodeMapping.name := by
  rw [names_of_declares declares, here.name, NodeMapping.name]

/-- A field is built behind others exactly if its node is. -/
theorem isBuilt_iff
    (declares : List.Forall₂ (fun node declared => node.settings.Declares declared) nodes fields)
    (here : node.settings.Declares declared) :
    declared.IsBuilt fields ↔ node.IsBuilt nodes := by
  have repeats := name_mem_iff declares here
  constructor
  · rintro ⟨new, bindable⟩
    obtain ⟨format, found⟩ := here.isBindable_iff.mp bindable
    exact ⟨mt repeats.mpr new, format, found⟩
  · rintro ⟨new, format, found⟩
    exact ⟨mt repeats.mp new, here.isBindable_iff.mpr ⟨format, found⟩⟩

/-- A field is refused behind others exactly if its node is, and for the same reason. -/
theorem isRefused_iff
    (declares : List.Forall₂ (fun node declared => node.settings.Declares declared) nodes fields)
    (here : node.settings.Declares declared) :
    declared.IsRefused fields cause ↔ node.IsRefused nodes cause := by
  have repeats := name_mem_iff declares here
  have same : declared.name = node.name := here.name
  constructor
  · rintro (again | ⟨new, fault⟩)
    · rw [same]
      exact .repeated (repeats.mp again)
    · exact .unbound (mt repeats.mpr new) (here.fault_iff.mp fault)
  · rintro (again | ⟨new, fault⟩)
    · rw [← same]
      exact .repeated (repeats.mpr again)
    · exact .unbound (mt repeats.mp new) (here.fault_iff.mpr fault)

end

/-- The first fault among the declared fields is the first one among the nodes. -/
theorem firstFault_declared_iff
    (declares : List.Forall₂ (fun node declared => node.settings.Declares declared) nodes fields) :
    Outcome.FirstFault FieldDeclaration.IsBuilt FieldDeclaration.IsRefused fields cause ↔
      Outcome.FirstFault NodeMapping.IsBuilt NodeMapping.IsRefused nodes cause := by
  refine (Outcome.firstFault_congr declares ?_ ?_).symm
  · exact fun _ _ _ _ earlier here => (isBuilt_iff earlier here).symm
  · exact fun _ _ _ _ earlier here => (isRefused_iff earlier here).symm

end Declared

section Levels

variable {context : Option String} {nodes : List NodeMapping} {cause : BindingError}

/-- A mapping is built if all nodes are declared, the context can be read, no name is repeated and
each field can be bound. -/
theorem exists_build_iff :
    (∃ schema, build ⟨context, nodes⟩ = .ok schema) ↔
      (∀ node ∈ nodes, ∃ declared, node.declaration = .ok declared) ∧
        (∀ source ∈ context, IsExpression source) ∧ (nodes.map NodeMapping.name).Nodup ∧
          ∀ node ∈ nodes, node.settings.HasFormat ∧ node.settings.IsFound := by
  have level {fields : List FieldDeclaration}
      (made : nodes.mapM NodeMapping.declaration = .ok fields) :
      (∃ schema, Draft.build ⟨context, none, fields⟩ = .ok schema) ↔
        (∀ source ∈ context, IsExpression source) ∧ (nodes.map NodeMapping.name).Nodup ∧
          ∀ node ∈ nodes, node.settings.HasFormat ∧ node.settings.IsFound := by
    have declares := forall₂_declares made
    rw [Draft.exists_build_iff, names_of_declares declares, forall_isBindable_iff declares]
  rw [build_eq, ← Outcome.mapM_ok_iff]
  simp only [Outcome.bind_eq_ok]
  constructor
  · rintro ⟨schema, fields, made, built⟩
    exact ⟨⟨fields, made⟩, (level made).mp ⟨schema, built⟩⟩
  · rintro ⟨⟨fields, made⟩, sound⟩
    obtain ⟨schema, built⟩ := (level made).mpr sound
    exact ⟨schema, fields, made, built⟩

/-- Faults of declarations are told before those of the context, and these before the faults of the
fields, among which the first one counts. -/
theorem build_eq_error_iff :
    build ⟨context, nodes⟩ = .error cause ↔
      (∃ before node behind, nodes = before ++ node :: behind ∧
        (∀ earlier ∈ before, ∃ declared, earlier.declaration = .ok declared) ∧
          node.declaration = .error cause) ∨
      (∀ node ∈ nodes, ∃ declared, node.declaration = .ok declared) ∧
        (buildContext context = .error cause ∨ (∀ source ∈ context, IsExpression source) ∧
          Outcome.FirstFault NodeMapping.IsBuilt NodeMapping.IsRefused nodes cause) := by
  have level {fields : List FieldDeclaration}
      (made : nodes.mapM NodeMapping.declaration = .ok fields) :
      Draft.build ⟨context, none, fields⟩ = .error cause ↔
        buildContext context = .error cause ∨ (∀ source ∈ context, IsExpression source) ∧
          Outcome.FirstFault NodeMapping.IsBuilt NodeMapping.IsRefused nodes cause := by
    rw [Draft.build_eq_error_iff, firstFault_declared_iff (forall₂_declares made)]
  rw [build_eq, Outcome.bind_eq_error, Outcome.mapM_eq_error_iff, ← Outcome.mapM_ok_iff]
  refine or_congr_right ?_
  constructor
  · rintro ⟨fields, made, failed⟩
    exact ⟨⟨fields, made⟩, (level made).mp failed⟩
  · rintro ⟨⟨fields, made⟩, fault⟩
    exact ⟨fields, made, (level made).mpr fault⟩

end Levels

/-- A property of lists of nodes is shown by showing it of the nodes within each node first. -/
@[elab_as_elim]
theorem of_within {motive : List NodeMapping → Prop}
    (step : ∀ nodes, (∀ node ∈ nodes, motive node.nodes) → motive nodes)
    (nodes : List NodeMapping) : motive nodes := by
  refine step nodes fun node member => ?_
  exact of_within step node.nodes
termination_by sizeOf nodes
decreasing_by
  obtain ⟨settings, inner⟩ := node
  have smaller := List.sizeOf_lt_of_mem member
  simp only [NodeMapping.mk.sizeOf_spec] at smaller
  simp only [NodeMapping.nodes]
  omega

/-- The two notions agree at every depth; the induction is on the nodes, a child schema being built
by the same rules. -/
theorem exists_build_iff_isValid (nodes : List NodeMapping) (context : Option String) :
    (∃ schema, build ⟨context, nodes⟩ = .ok schema) ↔
      IsValid nodes ∧ ∀ source ∈ context, IsExpression source := by
  induction nodes using of_within generalizing context with
  | step nodes ih =>
      -- What is built within a node has no context that could be at fault.
      have inner (node : NodeMapping) (member : node ∈ nodes) :
          (∃ schema, build ⟨none, node.nodes⟩ = .ok schema) ↔ IsValid node.nodes := by
        rw [ih node member]
        exact and_iff_left (fun _ => nofun)
      rw [exists_build_iff, isValid_iff]
      constructor
      · rintro ⟨declared, readable, distinct, others⟩
        have declarable (node : NodeMapping) (member : node ∈ nodes) :=
          exists_declaration_iff.mp (declared node member)
        refine ⟨⟨⟨distinct, ?_, ?_, ?_⟩, ?_⟩, readable⟩
        · exact fun node member => (declarable node member).1
        · exact fun node member => (others node member).1
        · exact fun node member => (others node member).2
        · exact fun node member child =>
            (inner node member).mp ((declarable node member).2 child)
      · rintro ⟨⟨⟨distinct, declarable, format, found⟩, within⟩, readable⟩
        refine ⟨?_, readable, distinct, ?_⟩
        · intro node member
          refine exists_declaration_iff.mpr ⟨declarable node member, fun child => ?_⟩
          exact (inner node member).mpr (within node member child)
        · exact fun node member => ⟨format node member, found node member⟩

theorem exists_declaration_iff_isDeclarable (node : NodeMapping) :
    (∃ declared, node.declaration = .ok declared) ↔ node.IsDeclarable := by
  have inner : (∃ schema, build ⟨none, node.nodes⟩ = .ok schema) ↔ IsValid node.nodes := by
    rw [exists_build_iff_isValid]
    exact and_iff_left (fun _ => nofun)
  rw [exists_declaration_iff, inner]
  exact ⟨fun both => ⟨both.1, both.2⟩, fun declarable => ⟨declarable.settings, declarable.within⟩⟩

/-- The first fault that is told is the one that the rules give, at every depth. -/
theorem build_eq_error_iff_fault (nodes : List NodeMapping) (context : Option String)
    (cause : BindingError) :
    build ⟨context, nodes⟩ = .error cause ↔ Fault ⟨context, nodes⟩ cause := by
  induction nodes using of_within generalizing context with
  | step nodes ih =>
      rw [build_eq_error_iff]
      simp only [exists_declaration_iff_isDeclarable]
      constructor
      · rintro (⟨before, node, behind, rfl, earlier, failed⟩ | ⟨declarable, failed⟩)
        · -- The hypothesis speaks of each node of the level, wherever the list is split.
          have member : node ∈ before ++ node :: behind :=
            List.mem_append_right before List.mem_cons_self
          rcases declaration_eq_error_iff.mp failed with fault | ⟨child, failed⟩
          · exact .declaration earlier fault
          · exact .child earlier child ((ih node member none).mp failed)
        · rcases failed with failed | ⟨readable, first⟩
          · obtain ⟨source, given, reason, unreadable, rfl⟩ :=
              buildContext_eq_error_iff.mp failed
            cases given
            exact .context declarable unreadable
          · exact .node declarable readable first
      · intro fault
        cases fault with
        | @declaration _ before behind node _ earlier fault =>
            exact .inl ⟨before, node, behind, rfl, earlier,
              declaration_eq_error_iff.mpr (.inl fault)⟩
        | @child _ before behind node _ earlier child fault =>
            have member : node ∈ before ++ node :: behind :=
              List.mem_append_right before List.mem_cons_self
            exact .inl ⟨before, node, behind, rfl, earlier,
              declaration_eq_error_iff.mpr (.inr ⟨child, (ih node member none).mpr fault⟩)⟩
        | context declarable unreadable =>
            exact .inr ⟨declarable, .inl
              (buildContext_eq_error_iff.mpr ⟨_, rfl, _, unreadable, rfl⟩)⟩
        | node declarable readable first => exact .inr ⟨declarable, .inr ⟨readable, first⟩⟩

/-- A mapping is built if its nodes are sound at every level, and its context can be read. Otherwise
the fault is told that comes first: level by level, and in a level what the declarations of its
nodes need before everything that is looked at when they are built. -/
theorem build_tells_first_fault (mapping : Mapping) :
    ((∃ schema, mapping.build = .ok schema) ↔
      (∀ level, IsLevel mapping.nodes level → IsSoundLevel level) ∧
        ∀ source ∈ mapping.context, IsExpression source) ∧
      ∀ cause, mapping.build = .error cause ↔ mapping.Fault cause := by
  obtain ⟨context, nodes⟩ := mapping
  exact ⟨exists_build_iff_isValid nodes context, build_eq_error_iff_fault nodes context⟩

/-- The value that the second node lacks is told before the format that the first one lacks, and
before the context, which is no expression. -/
example (settings : Settings) :
    let duration := { settings with type := "duration", format := none }
    let constant := { settings with name := "version", type := "constant", value := none }
    build ⟨some "(", [.mk duration [], .mk constant []]⟩ = .error (.missingValue "version") :=
  rfl

end Mapping

end XmlRecords
