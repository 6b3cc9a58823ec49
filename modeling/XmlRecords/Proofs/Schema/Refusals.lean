import XmlRecords.Proofs.Schema.Building

/-! # Why a schema is not built

A draft is refused for its context first, and then for the first field that has a fault: its name
comes a second time, its type needs a format that is missing, or its expression or that of its
context cannot be read, in this order. Each function of the building has here the condition under
which it gives a value, and the fault that it tells otherwise.
-/

namespace XmlRecords

/-- The text is that of an expression. -/
def IsExpression (source : String) : Prop :=
  ∃ path, XPath.Expression.parse source = .ok path

namespace Location

/-- The expressions by which a field is found can be read: its own, and that of its context. -/
structure IsReadable (location : Location) (field : String) : Prop where
  path : IsExpression (location.path field)
  context : ∀ source ∈ location.context, IsExpression source

/-- The first of the expressions by which a field is found that cannot be read. -/
inductive Fault (location : Location) (field : String) : BindingError → Prop
  | path {cause : XPath.Error}
      (unreadable : XPath.Expression.parse (location.path field) = .error cause) :
      Fault location field (.expression field cause)
  | context {source : String} {cause : XPath.Error} (path : IsExpression (location.path field))
      (given : location.context = some source)
      (unreadable : XPath.Expression.parse source = .error cause) :
      Fault location field (.expression field cause)

end Location

namespace Selector

variable {field source : String} {location : Location} {cause : BindingError}

theorem exists_parsePath_iff :
    (∃ path, parsePath field source = .ok path) ↔ IsExpression source := by
  simp only [parsePath, Outcome.mapError_eq_ok, IsExpression]

/-- An expression that cannot be read is refused under the name of its field. -/
theorem parsePath_eq_error_iff :
    parsePath field source = .error cause ↔
      ∃ reason, XPath.Expression.parse source = .error reason ∧
        cause = .expression field reason := by
  rw [parsePath]
  cases XPath.Expression.parse source with
  | ok path => simp only [Except.mapError, reduceCtorEq, false_and, exists_false]
  | error reason => simp only [Except.mapError, Except.error.injEq, exists_eq_left', eq_comm]

/-- The path of a field is checked before its own context. -/
theorem compile_eq_error_iff :
    compile field location = .error cause ↔ location.Fault field cause := by
  rw [compile, Outcome.bind_eq_error, parsePath_eq_error_iff]
  constructor
  · rintro (⟨reason, unreadable, rfl⟩ | ⟨path, read, failed⟩)
    · exact .path unreadable
    · have readable : IsExpression (location.path field) :=
        exists_parsePath_iff.mp ⟨path, read⟩
      split at failed
      · cases failed
      · rename_i source given
        rw [Outcome.bind_eq_error, parsePath_eq_error_iff] at failed
        rcases failed with ⟨reason, unreadable, rfl⟩ | ⟨_, _, failed⟩
        · exact .context readable given unreadable
        · cases failed
  · rintro (unreadable | ⟨readable, given, unreadable⟩)
    · exact .inl ⟨_, unreadable, rfl⟩
    · obtain ⟨path, read⟩ := exists_parsePath_iff.mpr readable
      refine .inr ⟨path, read, ?_⟩
      rw [given]
      exact Outcome.bind_eq_error.mpr (.inl (parsePath_eq_error_iff.mpr ⟨_, unreadable, rfl⟩))

/-- A field is found if its path and its own context can be read. -/
theorem exists_compile_iff :
    (∃ selector, compile field location = .ok selector) ↔ location.IsReadable field := by
  simp only [compile, Outcome.bind_eq_ok]
  constructor
  · rintro ⟨selector, path, read, rest⟩
    refine ⟨exists_parsePath_iff.mp ⟨path, read⟩, ?_⟩
    intro source given
    rw [Option.mem_def.mp given] at rest
    obtain ⟨inner, innerRead, -⟩ := Outcome.bind_eq_ok.mp rest
    exact exists_parsePath_iff.mp ⟨inner, innerRead⟩
  · rintro ⟨readable, inContext⟩
    obtain ⟨path, read⟩ := exists_parsePath_iff.mpr readable
    cases given : location.context with
    | none => exact ⟨_, path, read, rfl⟩
    | some source =>
        obtain ⟨inner, innerRead⟩ := exists_parsePath_iff.mpr (inContext source given)
        exact ⟨_, path, read, Outcome.bind_eq_ok.mpr ⟨inner, innerRead, rfl⟩⟩

end Selector

namespace Conversion

variable {type : FieldType} {format : Option String} {cause : BindingError}

/-- A conversion needs a format only for the types that require one. -/
theorem exists_ofType_iff :
    (∃ conversion, ofType type format = .ok conversion) ↔
      (type.requiresFormat = true → ∃ source, format = some source) := by
  cases format with
  | none => cases type <;> simp [ofType, FieldType.requiresFormat]
  | some source => cases type <;> simp [ofType]

/-- The only thing that a conversion can lack is its format. -/
theorem ofType_eq_error_iff :
    ofType type format = .error cause ↔
      type.requiresFormat = true ∧ format = none ∧ cause = .missingFormat type := by
  cases format with
  | none => cases type <;> simp [ofType, FieldType.requiresFormat, eq_comm]
  | some source => cases type <;> simp [ofType]

end Conversion

/-- Fields with this content have a location. -/
def Content.IsLocated : Content → Prop
  | .typed _ => True
  | .child _ => True
  | .constant _ => False
  | .method _ => False

namespace FieldDeclaration

/-- What the content of a field needs is there: the format, and expressions that can be read. -/
structure IsBindable (declared : FieldDeclaration) : Prop where
  format : ∀ type, declared.content = .typed type → type.requiresFormat = true →
    ∃ source, declared.options.format = some source
  location : declared.content.IsLocated → declared.options.location.IsReadable declared.name

/-- What the content of a field needs is not there. -/
inductive Fault (declared : FieldDeclaration) : BindingError → Prop
  | format {type : FieldType} (typed : declared.content = .typed type)
      (required : type.requiresFormat = true) (absent : declared.options.format = none) :
      Fault declared (.missingFormat type)
  | location {cause : BindingError} (located : declared.content.IsLocated)
      (format : ∀ type, declared.content = .typed type → type.requiresFormat = true →
        ∃ source, declared.options.format = some source)
      (fault : declared.options.location.Fault declared.name cause) : Fault declared cause

variable {declared : FieldDeclaration} {cause : BindingError}

/-- A field is bound if it has its format and can be found. -/
theorem exists_bind_iff : (∃ binding, declared.bind = .ok binding) ↔ declared.IsBindable := by
  obtain ⟨name, content, options⟩ := declared
  cases content with
  | typed type =>
      simp only [bind, Outcome.bind_eq_ok, Outcome.pure_eq_ok]
      constructor
      · rintro ⟨binding, conversion, converted, selector, compiled, -⟩
        refine ⟨?_, fun _ => Selector.exists_compile_iff.mp ⟨selector, compiled⟩⟩
        rintro _ ⟨⟩
        exact Conversion.exists_ofType_iff.mp ⟨conversion, converted⟩
      · rintro ⟨format, location⟩
        obtain ⟨conversion, converted⟩ := Conversion.exists_ofType_iff.mpr (format type rfl)
        obtain ⟨selector, compiled⟩ := Selector.exists_compile_iff.mpr (location trivial)
        exact ⟨_, conversion, converted, selector, compiled, rfl⟩
  | child schema =>
      simp only [bind, Outcome.bind_eq_ok, Outcome.pure_eq_ok]
      constructor
      · rintro ⟨binding, selector, compiled, -⟩
        refine ⟨?_, fun _ => Selector.exists_compile_iff.mp ⟨selector, compiled⟩⟩
        rintro _ ⟨⟩
      · rintro ⟨-, location⟩
        obtain ⟨selector, compiled⟩ := Selector.exists_compile_iff.mpr (location trivial)
        exact ⟨_, selector, compiled, rfl⟩
  | constant value =>
      refine ⟨fun _ => ⟨?_, False.elim⟩, fun _ => ⟨_, rfl⟩⟩
      rintro _ ⟨⟩
  | method compute =>
      refine ⟨fun _ => ⟨?_, False.elim⟩, fun _ => ⟨_, rfl⟩⟩
      rintro _ ⟨⟩

/-- The format of a field is checked before its expressions. -/
theorem bind_eq_error_iff : declared.bind = .error cause ↔ declared.Fault cause := by
  obtain ⟨name, content, options⟩ := declared
  cases content with
  | typed type =>
      simp only [bind, Outcome.bind_eq_error, Conversion.ofType_eq_error_iff,
        Selector.compile_eq_error_iff, pure, Except.pure, reduceCtorEq, and_false, exists_false,
        or_false]
      constructor
      · rintro (⟨required, absent, rfl⟩ | ⟨conversion, converted, fault⟩)
        · exact .format rfl required absent
        · refine .location trivial ?_ fault
          rintro _ ⟨⟩
          exact Conversion.exists_ofType_iff.mp ⟨conversion, converted⟩
      · rintro (⟨⟨⟩, required, absent⟩ | ⟨-, format, fault⟩)
        · exact .inl ⟨required, absent, rfl⟩
        · obtain ⟨conversion, converted⟩ := Conversion.exists_ofType_iff.mpr (format type rfl)
          exact .inr ⟨conversion, converted, fault⟩
  | child schema =>
      simp only [bind, Outcome.bind_eq_error, Selector.compile_eq_error_iff, pure, Except.pure,
        reduceCtorEq, and_false, exists_false, or_false]
      constructor
      · refine fun fault => .location trivial ?_ fault
        rintro _ ⟨⟩
      · rintro (⟨⟨⟩, -, -⟩ | ⟨-, -, fault⟩)
        exact fault
  | constant value =>
      refine ⟨nofun, ?_⟩
      rintro (⟨⟨⟩, -, -⟩ | ⟨⟨⟩, -, -⟩)
  | method compute =>
      refine ⟨nofun, ?_⟩
      rintro (⟨⟨⟩, -, -⟩ | ⟨⟨⟩, -, -⟩)

/-- The name of the field is new, and the field can be bound. -/
structure IsBuilt (before : List FieldDeclaration) (declared : FieldDeclaration) : Prop where
  new : declared.name ∉ before.map name
  bindable : declared.IsBindable

/-- The name of the field is not new; or it is, and the field cannot be bound. -/
inductive IsRefused (before : List FieldDeclaration) (declared : FieldDeclaration) :
    BindingError → Prop
  | repeated (again : declared.name ∈ before.map name) :
      IsRefused before declared (.repeatedField declared.name)
  | unbound {cause : BindingError} (new : declared.name ∉ before.map name)
      (fault : declared.Fault cause) : IsRefused before declared cause

end FieldDeclaration

section Fields

variable {before fields : List FieldDeclaration} {seen : List String} {cause : BindingError}

theorem exists_builds_iff :
    (∃ built, List.Forall₂ FieldDeclaration.Builds fields built) ↔
      ∀ declared ∈ fields, declared.IsBindable := by
  induction fields with
  | nil => exact iff_of_true ⟨[], .nil⟩ (List.forall_mem_nil _)
  | cons declared fields ih =>
      rw [List.forall_mem_cons, ← ih, ← FieldDeclaration.exists_bind_iff]
      simp only [List.forall₂_cons_left_iff]
      constructor
      · rintro ⟨_, _, built, ⟨binding, bound, -⟩, builds, -⟩
        exact ⟨⟨binding, bound⟩, built, builds⟩
      · rintro ⟨⟨binding, bound⟩, built, builds⟩
        exact ⟨_, _, built, ⟨binding, bound, rfl⟩, builds, rfl⟩

/-- Built fields keep the names of the declared ones, in order. -/
theorem names_of_builds {built : List Field}
    (builds : List.Forall₂ FieldDeclaration.Builds fields built) :
    built.map Field.name = fields.map FieldDeclaration.name := by
  induction builds with
  | nil => rfl
  | cons here _ ih =>
      obtain ⟨_, -, rfl⟩ := here
      rw [List.map_cons, List.map_cons, ih, Field.name]

/-- Fields are checked in order, and each one for a repeated name first. The induction is on the
fields, those before them being kept for the check. -/
theorem buildFields_eq_error_iff
    (names : ∀ name, name ∈ seen ↔ name ∈ before.map FieldDeclaration.name) :
    buildFields seen fields = .error cause ↔
      Outcome.FirstFault (fun prior => FieldDeclaration.IsBuilt (before ++ prior))
        (fun prior => FieldDeclaration.IsRefused (before ++ prior)) fields cause := by
  induction fields generalizing before seen with
  | nil => exact ⟨nofun, fun first => (Outcome.not_firstFault_nil first).elim⟩
  | cons declared fields ih =>
      -- The names that have been seen remain those of the fields before.
      have onward (name : String) : name ∈ declared.name :: seen ↔
          name ∈ (before ++ [declared]).map FieldDeclaration.name := by
        rw [List.map_append, List.mem_append, List.mem_cons, names, List.map_singleton,
          List.mem_singleton, or_comm]
      have others := ih onward
      simp only [List.append_assoc, List.singleton_append] at others
      rw [Outcome.firstFault_cons_iff, List.append_nil, buildFields, ← others]
      by_cases again : declared.name ∈ seen
      · rw [if_pos (List.contains_iff_mem.mpr again)]
        have repeated := (names _).mp again
        constructor
        · rintro ⟨⟩
          exact .inl (.repeated repeated)
        · rintro ((_ | ⟨new, -⟩) | ⟨⟨new, -⟩, -⟩)
          · rfl
          · exact (new repeated).elim
          · exact (new repeated).elim
      · have new := mt (names _).mpr again
        rw [if_neg (mt List.contains_iff_mem.mp again)]
        simp only [Outcome.bind_eq_error, FieldDeclaration.bind_eq_error_iff, pure, Except.pure,
          reduceCtorEq, and_false, exists_false, or_false]
        constructor
        · rintro (fault | ⟨binding, bound, failed⟩)
          · exact .inl (.unbound new fault)
          · have bindable := FieldDeclaration.exists_bind_iff.mp ⟨binding, bound⟩
            exact .inr ⟨⟨new, bindable⟩, failed⟩
        · rintro ((repeated | ⟨-, fault⟩) | ⟨⟨-, bindable⟩, failed⟩)
          · exact (new repeated).elim
          · exact .inl fault
          · obtain ⟨binding, bound⟩ := FieldDeclaration.exists_bind_iff.mpr bindable
            exact .inr ⟨binding, bound, failed⟩

end Fields

section Context

variable {context : Option String} {cause : BindingError}

theorem exists_buildContext_iff :
    (∃ built, buildContext context = .ok built) ↔ ∀ source ∈ context, IsExpression source := by
  cases context with
  | none => exact ⟨fun _ => nofun, fun _ => ⟨none, rfl⟩⟩
  | some source =>
      simp only [buildContext, Outcome.bind_eq_ok, Outcome.pure_eq_ok, Option.mem_def,
        Option.some.injEq, forall_eq']
      constructor
      · rintro ⟨_, path, read, -⟩
        exact Selector.exists_parsePath_iff.mp ⟨path, read⟩
      · intro readable
        obtain ⟨path, read⟩ := Selector.exists_parsePath_iff.mpr readable
        exact ⟨_, path, read, rfl⟩

/-- The context of a schema is refused under a name of its own. -/
theorem buildContext_eq_error_iff :
    buildContext context = .error cause ↔
      ∃ source ∈ context, ∃ reason, XPath.Expression.parse source = .error reason ∧
        cause = .expression "context" reason := by
  cases context with
  | none => exact ⟨nofun, nofun⟩
  | some source =>
      simp only [buildContext, Outcome.bind_eq_error, Selector.parsePath_eq_error_iff, pure,
        Except.pure, reduceCtorEq, and_false, exists_false, or_false, Option.mem_def,
        Option.some.injEq, exists_eq_left']

end Context

namespace Draft

variable {draft : Draft} {cause : BindingError}

/-- A draft is built if its context can be read, its fields have different names, and each of them
can be bound. -/
theorem exists_build_iff :
    (∃ schema, draft.build = .ok schema) ↔
      (∀ source ∈ draft.context, IsExpression source) ∧
        (draft.fields.map FieldDeclaration.name).Nodup ∧
          ∀ declared ∈ draft.fields, declared.IsBindable := by
  rw [← exists_buildContext_iff, ← exists_builds_iff]
  constructor
  · rintro ⟨schema, built⟩
    obtain ⟨contextBuilt, builds, distinct⟩ := Schema.build_eq_ok_iff.mp built
    rw [names_of_builds builds] at distinct
    exact ⟨⟨_, contextBuilt⟩, distinct, _, builds⟩
  · rintro ⟨⟨context, contextBuilt⟩, distinct, built, builds⟩
    rw [← names_of_builds builds] at distinct
    exact ⟨.mk context built, Schema.build_eq_ok_iff.mpr ⟨contextBuilt, builds, distinct⟩⟩

/-- A draft that is not built is refused for its context, and otherwise for the first field with a
fault. -/
theorem build_eq_error_iff :
    draft.build = .error cause ↔
      buildContext draft.context = .error cause ∨
        (∀ source ∈ draft.context, IsExpression source) ∧
          Outcome.FirstFault FieldDeclaration.IsBuilt FieldDeclaration.IsRefused draft.fields
            cause := by
  have fields := @buildFields_eq_error_iff [] draft.fields [] cause fun _ => Iff.rfl
  simp only [List.nil_append] at fields
  simp only [build, Outcome.bind_eq_error, fields, pure, Except.pure, reduceCtorEq, and_false,
    exists_false, or_false, ← exists_buildContext_iff, exists_and_right]

end Draft

end XmlRecords
