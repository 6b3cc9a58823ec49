import XmlRecords.Proofs.XPath.Walking
import XmlRecords.Schema.Declaration
import XmlRecords.Schema.Evaluation

/-! # Ways to reach the nodes of a field

The nodes of a field can be reached from the nodes of a context of the whole schema, from those of a
context of the field, or by one long path. A selector looks up its expression from one context node
at a time and merges what it finds, if there are several; a path merges after every step. They come
to the same nodes, so that the records are the same (`Schema.ways_to_reach_agree`).
-/

namespace XmlRecords

open XPath

namespace Selector

variable {document : Document} {path : Expression} {nodes found : List Address}

theorem selectFrom_eq_ok_iff :
    selectFrom path document nodes = .ok found ↔
      ∃ joined, collect (fun node => path.select document node []) nodes = .ok joined ∧
        (if 1 < nodes.length then Address.inOrder joined else joined) = found := by
  simp only [selectFrom, Outcome.bind_eq_ok, Outcome.mapError_eq_ok, Outcome.pure_eq_ok]

/-- An expression finds nodes from a list of nodes if it selects some from each of them. -/
theorem selectFrom_ok_iff :
    (∃ found, selectFrom path document nodes = .ok found) ↔
      ∀ node ∈ nodes, ∃ part, path.select document node [] = .ok part := by
  rw [← collect_ok_iff]
  simp only [selectFrom_eq_ok_iff]
  constructor
  · rintro ⟨_, joined, collected, _⟩
    exact ⟨joined, collected⟩
  · rintro ⟨joined, collected⟩
    exact ⟨_, joined, collected, rfl⟩

/-- What an expression finds from a list of nodes is what it selects from any of them. -/
theorem mem_of_selectFrom (selected : selectFrom path document nodes = .ok found)
    {target : Address} :
    target ∈ found ↔
      ∃ node ∈ nodes, ∃ part, path.select document node [] = .ok part ∧ target ∈ part := by
  obtain ⟨joined, collected, rfl⟩ := selectFrom_eq_ok_iff.mp selected
  rw [← mem_of_collect collected]
  split
  · exact Address.mem_inOrder
  · exact Iff.rfl

/-- An expression that selects nodes in order from one node does so from a list of nodes; nothing
has to be merged when there is at most one. -/
theorem ascending_of_selectFrom
    (each : ∀ node part, path.select document node [] = .ok part → Address.Ascending part)
    (selected : selectFrom path document nodes = .ok found) : Address.Ascending found := by
  obtain ⟨joined, collected, rfl⟩ := selectFrom_eq_ok_iff.mp selected
  split
  · exact Address.ascending_inOrder joined
  · rename_i few
    match nodes with
    | [] =>
        cases collected
        exact Address.ascending_nil
    | [node] =>
        simp only [collect, Outcome.bind_eq_ok, Outcome.pure_eq_ok] at collected
        obtain ⟨part, here, others, nothing, rfl⟩ := collected
        cases nothing
        rw [List.append_nil]
        exact each node part here
    | _ :: _ :: _ =>
        simp only [List.length_cons] at few
        omega

/-- Looking up a relative path from each of some nodes in order, and merging, is walking it from all
of them together. -/
theorem toOption_selectFrom_path {steps : List Step} (ascending : Address.Ascending nodes) :
    (selectFrom (.path false steps) document nodes).toOption =
      (Step.walk document [] steps nodes).toOption := by
  refine Outcome.toOption_eq_of_agree ?_ fun found walkFound selected walked => ?_
  · rw [selectFrom_ok_iff, Step.walk_ok_iff]
    exact forall₂_congr fun node _ => Expression.select_path_ok_iff
  · have each : ∀ node part, (Expression.path false steps).select document node [] = .ok part →
        Address.Ascending part := by
      intro node part here
      rw [Expression.select_path] at here
      exact Step.ascending_of_walk here (Address.ascending_singleton node)
    have completes := Step.walk_ok_iff.mp ⟨walkFound, walked⟩
    refine (ascending_of_selectFrom each selected).eq_of_mem_iff
      (Step.ascending_of_walk walked ascending) fun target => ?_
    rw [mem_of_selectFrom selected, Step.mem_of_walk walked]
    exact exists_congr fun node => and_congr_right fun member =>
      Expression.exists_select_path_iff (completes node member)

/-- The value at nodes that have been found: a list of all, or the first one. -/
def valueAt (isArray : Bool) (document : Document) (conversion : Conversion) (fallback : Fallback)
    (found : List Address) : Except BindingError Value :=
  if isArray then do
    return .list (← found.mapM fun node => conversion.convertNode fallback document (some node))
  else
    conversion.convertNode fallback document found.head?

/-- A selector is evaluated by finding its nodes first. -/
theorem evaluate_eq (selector : Selector) (conversion : Conversion) (fallback : Fallback) :
    selector.evaluate document conversion fallback nodes =
      selector.select document nodes >>=
        valueAt selector.isArray document conversion fallback := by
  unfold evaluate valueAt
  cases selector.isArray <;> rfl

theorem selectFrom_singleton (node : Address) :
    selectFrom path document [node] =
      (path.select document node []).mapError BindingError.evaluation := by
  unfold selectFrom
  simp only [collect]
  cases path.select document node [] with
  | error cause => rfl
  | ok part =>
      change Except.ok (part ++ []) = Except.ok part
      rw [List.append_nil]

end Selector

namespace Schema

variable {document : Document}

/-- The record of a schema with one field that is read from nodes, from the nodes that are found for
the field. -/
theorem bindDocument_single (context : Option Expression) (selector : Selector) (name : String)
    (isPrivate : Bool) (transform : Option Transform) (conversion : Conversion)
    (fallback : Fallback) :
    let schema : Schema :=
      .mk context [.mk name isPrivate transform (.typed selector conversion fallback)]
    schema.bindDocument document =
      (schema.start document >>= selector.select document) >>= fun found => do
        let value ← Selector.valueAt selector.isArray document conversion fallback found
        return Record.ofList (Field.takePublic [.mk name isPrivate transform (.constant value)]
          [(name, applyTransform transform value ⟨[], []⟩)]) := by
  intro schema
  simp only [bindDocument, schema, evaluate, Field.evaluateAll, Field.evaluate, Binding.evaluate,
    Selector.evaluate_eq, bind_assoc, pure_bind]
  rfl

/-- Schemas with one field each agree on a document if they find the same nodes for the field. -/
theorem bindDocument_congr {first second : Option Expression} {left right : Selector}
    (isArray : left.isArray = right.isArray)
    (found : ((mk first []).start document >>= left.select document).toOption =
      ((mk second []).start document >>= right.select document).toOption)
    (name : String) (isPrivate : Bool) (transform : Option Transform) (conversion : Conversion)
    (fallback : Fallback) :
    ((mk first [.mk name isPrivate transform (.typed left conversion fallback)]).bindDocument
        document).toOption =
      ((mk second [.mk name isPrivate transform (.typed right conversion fallback)]).bindDocument
        document).toOption := by
  rw [bindDocument_single, bindDocument_single, isArray]
  exact Outcome.toOption_bind_congr found fun _ => rfl

/-- A relative path that is looked up from the nodes of another path finds the nodes of the one long
path. -/
theorem toOption_select_selectFrom (document : Document) (absolute : Bool)
    (context steps : List Step) :
    (((Expression.path absolute context).select document [] []).mapError BindingError.evaluation >>=
        Selector.selectFrom (.path false steps) document).toOption =
      ((Expression.path absolute (context ++ steps)).select document [] []).toOption := by
  refine Outcome.toOption_eq_iff.mpr fun found => ?_
  simp only [Outcome.bind_eq_ok, Outcome.mapError_eq_ok, Expression.select_path, Step.walk_append]
  refine exists_congr fun middles => and_congr_right fun walked => ?_
  have ascending := Step.ascending_of_walk walked (Address.ascending_singleton _)
  exact Outcome.toOption_eq_iff.mp (Selector.toOption_selectFrom_path ascending) found

section Ways

variable (document : Document) (absolute : Bool) (context steps : List Step) (isArray : Bool)
  (name : String) (isPrivate : Bool) (transform : Option Transform) (conversion : Conversion)
  (fallback : Fallback)

/-- A path from the context of the schema is as good as the long path. -/
theorem bindDocument_rootContext :
    ((mk (some (.path absolute context)) [.mk name isPrivate transform
        (.typed ⟨.path false steps, none, isArray⟩ conversion fallback)]).bindDocument
      document).toOption =
    ((mk none [.mk name isPrivate transform (.typed
        ⟨.path absolute (context ++ steps), none, isArray⟩ conversion fallback)]).bindDocument
      document).toOption := by
  refine bindDocument_congr ?_ ?_ name isPrivate transform conversion fallback
  · rfl
  change (((Expression.path absolute context).select document [] []).mapError _ >>=
      Selector.selectFrom (.path false steps) document).toOption =
    (Selector.selectFrom (.path absolute (context ++ steps)) document [[]]).toOption
  rw [toOption_select_selectFrom, Selector.selectFrom_singleton, Outcome.toOption_mapError]

/-- A path from a context of the field is as good as the long path. -/
theorem bindDocument_localContext :
    ((mk none [.mk name isPrivate transform (.typed
        ⟨.path false steps, some (.path absolute context), isArray⟩ conversion
        fallback)]).bindDocument document).toOption =
    ((mk none [.mk name isPrivate transform (.typed
        ⟨.path absolute (context ++ steps), none, isArray⟩ conversion fallback)]).bindDocument
      document).toOption := by
  refine bindDocument_congr ?_ ?_ name isPrivate transform conversion fallback
  · rfl
  change (Selector.selectFrom (.path absolute context) document [[]] >>=
      Selector.selectFrom (.path false steps) document).toOption =
    (Selector.selectFrom (.path absolute (context ++ steps)) document [[]]).toOption
  rw [Selector.selectFrom_singleton, Selector.selectFrom_singleton, toOption_select_selectFrom,
    Outcome.toOption_mapError]

end Ways

end Schema

/-- A declared field that is read from the nodes of an expression, in a context of its own if one is
given. -/
def FieldDeclaration.reading (name : String) (type : FieldType) (options : FieldOptions)
    (xpath : String) (context : Option String) : FieldDeclaration :=
  ⟨name, .typed type,
    { options with location := { options.location with xpath := some xpath, context := context } }⟩

/-- A context that may be given as a text is this expression. -/
inductive ContextRead : Option String → Option Expression → Prop where
  | none : ContextRead none none
  | some {source : String} {path : Expression} (read : Expression.parse source = .ok path) :
      ContextRead (some source) (some path)

namespace ContextRead

variable {source : Option String} {context : Option Expression}

theorem buildContext_eq (contextRead : ContextRead source context) :
    buildContext source = .ok context := by
  cases contextRead with
  | none => rfl
  | some read =>
      simp only [buildContext, Selector.parsePath, read]
      rfl

theorem compile_eq (contextRead : ContextRead source context) {inner : String} {path : Expression}
    (innerRead : Expression.parse inner = .ok path) (name : String) (type : FieldType)
    (options : FieldOptions) :
    Selector.compile name
        (FieldDeclaration.reading name type options inner source).options.location =
      .ok ⟨path, context, options.location.isArray⟩ := by
  cases contextRead with
  | none =>
      simp only [Selector.compile, FieldDeclaration.reading, Location.path, Selector.parsePath,
        innerRead]
      rfl
  | some read =>
      simp only [Selector.compile, FieldDeclaration.reading, Location.path, Selector.parsePath,
        innerRead, read]
      rfl

end ContextRead

/-- A declared field that is read from nodes is built with its expressions, if its type has the
format that it needs. -/
theorem Draft.build_reading {inner : String} {path : Expression}
    {outerSource source : Option String} {outer context : Option Expression}
    (outerRead : ContextRead outerSource outer) (contextRead : ContextRead source context)
    (innerRead : Expression.parse inner = .ok path) (name : String) (type : FieldType)
    (options : FieldOptions) :
    (Draft.mk outerSource none
        [FieldDeclaration.reading name type options inner source]).build = do
      let conversion ← Conversion.ofType type options.format
      return .mk outer [.mk name options.isPrivate options.transform
        (.typed ⟨path, context, options.location.isArray⟩ conversion options.fallback)] := by
  have compiled := contextRead.compile_eq innerRead name type options
  simp only [Draft.build, outerRead.buildContext_eq, buildFields, FieldDeclaration.bind,
    List.contains_nil, Bool.false_eq_true, ↓reduceIte]
  change (do
    let fields ← ((Conversion.ofType type options.format >>= fun conversion =>
      Selector.compile name _ >>= fun selector => _) >>= _)
    return _) = _
  rw [compiled]
  cases Conversion.ofType type options.format <;> rfl

namespace Schema

/-- All ways to reach the nodes of a field agree: a context of the schema, a context of the field,
and one path whose steps are those of the context and those of the field. This holds of the schemas,
and of what is declared with the texts of these expressions, where a context of the field is its own
or that of the declarations it stands in. -/
theorem ways_to_reach_agree (document : Document) (absolute : Bool) (context steps : List Step) :
    (∀ name isPrivate transform conversion fallback isArray,
      let record outer selector := ((mk outer [.mk name isPrivate transform
        (.typed selector conversion fallback)]).bindDocument document).toOption
      let direct := record none ⟨.path absolute (context ++ steps), none, isArray⟩
      record (some (.path absolute context)) ⟨.path false steps, none, isArray⟩ = direct ∧
        record none ⟨.path false steps, some (.path absolute context), isArray⟩ = direct) ∧
    (∀ outer inner long, Expression.parse outer = .ok (.path absolute context) →
      Expression.parse inner = .ok (.path false steps) →
      Expression.parse long = .ok (.path absolute (context ++ steps)) →
      ∀ name type options,
        let field xpath local? : Declaration :=
          .field (.reading name type options xpath local?)
        let record declarations :=
          (declare declarations >>= fun schema => schema.bindDocument document).toOption
        let direct := record [field long none]
        record [.context outer, field inner none] = direct ∧
          record [field inner (some outer)] = direct ∧
          record [.within outer [field inner none]] = direct) := by
  constructor
  · intro name isPrivate transform conversion fallback isArray record direct
    exact ⟨bindDocument_rootContext .., bindDocument_localContext ..⟩
  · intro outer inner long outerRead innerRead longRead name type options field record direct
    have directBuilt : declare [field long none] = _ :=
      Draft.build_reading .none .none longRead name type options
    have rootBuilt : declare [.context outer, field inner none] = _ :=
      Draft.build_reading (.some outerRead) .none innerRead name type options
    have ownBuilt : declare [field inner (some outer)] = _ :=
      Draft.build_reading .none (.some outerRead) innerRead name type options
    have withinBuilt : declare [.within outer [field inner none]] = _ :=
      Draft.build_reading .none (.some outerRead) innerRead name type options
    simp only [record, direct, directBuilt, rootBuilt, ownBuilt, withinBuilt, bind_assoc, pure_bind]
    refine ⟨?_, ?_, ?_⟩
    · exact Outcome.toOption_bind_congr rfl fun conversion => bindDocument_rootContext ..
    · exact Outcome.toOption_bind_congr rfl fun conversion => bindDocument_localContext ..
    · exact Outcome.toOption_bind_congr rfl fun conversion => bindDocument_localContext ..

/-- Each `b` looks up its siblings before it, so that what they find overlaps. -/
theorem ways_to_reach_agree_siblings :
    let document : Document :=
      ⟨[.element "a" [] [.element "b" [] [.text "1" ""] "", .element "b" [] [.text "2" ""] "",
        .element "b" [] [] ""] ""], ""⟩
    let options : FieldOptions := { FieldOptions.default with
      location := { Location.default with isArray := true } }
    let field xpath local? : Declaration := .field (.reading "b" .integer options xpath local?)
    let record declarations :=
      (declare declarations >>= fun schema => schema.bindDocument document).toOption
    let direct := record [field "//b/preceding-sibling::*" none]
    record [.context "//b", field "preceding-sibling::*" none] = direct ∧
      record [field "preceding-sibling::*" (some "//b")] = direct ∧
      record [.within "//b" [field "preceding-sibling::*" none]] = direct := by
  intro document options field record direct
  have outer : Expression.parse "//b" =
      .ok (.path true [.anywhere, .mk .child (.name "b") []]) := rfl
  have inner : Expression.parse "preceding-sibling::*" =
      .ok (.path false [.mk .precedingSibling .any []]) := rfl
  have long : Expression.parse "//b/preceding-sibling::*" =
      .ok (.path true ([.anywhere, .mk .child (.name "b") []] ++
        [.mk .precedingSibling .any []])) := rfl
  exact (ways_to_reach_agree document true _ _).2 _ _ _ outer inner long "b" .integer options

end Schema

end XmlRecords
