import XmlRecords.Proofs.XPath.Positions
import XmlRecords.Proofs.XPath.Walking

/-! # Descendants, and children of descendants

The abbreviation `//` stands for a step to all below a node, before a step to children. A step to
descendants does the same at once, if its predicates look at the nodes and not at their positions:
such predicates decide about a node by itself (`Expression.keepAll_eq_ok_iff`), so that it does not
matter among which other nodes it is found. The descendants of a node are the children of the node
and of its descendants (`mem_nodesBelow_iff`), and children and descendants are tested alike.
-/

namespace XmlRecords

namespace XPath

namespace Expression

section Deciding

variable (document : Document) (root : Address)

/-- The predicates decide whether a node is kept: each of them has a value there, unless one before
it is not true. -/
def DecideAbout : List Expression → Address → Prop
  | [], _ => True
  | predicate :: predicates, node =>
      predicate.HasValueAt document root node ∧
        (predicate.isTrueAt document root node = true → DecideAbout predicates node)

/-- All predicates are true at a node. -/
def areTrueAt (predicates : List Expression) (node : Address) : Bool :=
  predicates.all fun predicate => predicate.isTrueAt document root node

/-- As a predicate, the expression looks at the nodes, and not at their positions: it is no number,
and calls `position` and `last` in the predicates of its paths only. -/
structure IgnoresPositions (predicate : Expression) : Prop where
  free : predicate.isPositionFree = true
  notNumber : predicate.type? ≠ some .number

variable {document root} {predicate : Expression} {predicates : List Expression}
  {nodes kept : List Address}

theorem filter_areTrueAt_nil : nodes.filter (areTrueAt document root []) = nodes :=
  List.filter_eq_self.mpr fun _ _ => rfl

theorem filter_areTrueAt_cons :
    nodes.filter (areTrueAt document root (predicate :: predicates)) =
      (nodes.filter (predicate.isTrueAt document root)).filter
        (areTrueAt document root predicates) := by
  rw [List.filter_filter]
  exact List.filter_congr fun node _ => Bool.and_comm _ _

theorem hasValueAt_of_keepAll
    (found : keepAll document root (predicate :: predicates) nodes = .ok kept) :
    ∀ node ∈ nodes, predicate.HasValueAt document root node := by
  rw [← List.singleton_append, keepAll_append] at found
  obtain ⟨left, here, _⟩ := Outcome.bind_eq_ok.mp found
  intro node member
  rw [← List.zipIdx_map_fst 1 nodes] at member
  obtain ⟨entry, inEntries, rfl⟩ := List.mem_map.mp member
  obtain ⟨value, evaluated⟩ := (keepAll_singleton_eq_ok_iff.mp here).valued entry inEntries
  exact ⟨entry.2, nodes.length, value, evaluated⟩

/-- Predicates that ignore positions keep the nodes at which they are true, if they decide about
all. -/
theorem keepAll_eq_ok_iff (ignoring : ∀ predicate ∈ predicates, predicate.IgnoresPositions) :
    keepAll document root predicates nodes = .ok kept ↔
      (∀ node ∈ nodes, DecideAbout document root predicates node) ∧
        kept = nodes.filter (areTrueAt document root predicates) := by
  induction predicates generalizing nodes with
  | nil =>
      simp only [keepAll, Except.ok.injEq, DecideAbout, implies_true, filter_areTrueAt_nil,
        true_and, eq_comm]
  | cons predicate predicates ih =>
      obtain ⟨⟨free, notNumber⟩, others⟩ := List.forall_mem_cons.mp ignoring
      have onward (valued : ∀ node ∈ nodes, predicate.HasValueAt document root node) :
          keepAll document root (predicate :: predicates) nodes = .ok kept ↔
            (∀ node ∈ nodes, predicate.isTrueAt document root node = true →
              DecideAbout document root predicates node) ∧
            kept = nodes.filter (areTrueAt document root (predicate :: predicates)) := by
        have tests : predicate.TestsEach document root nodes := ⟨free, notNumber, valued⟩
        rw [tests.keepAll_cons, ih others, filter_areTrueAt_cons]
        simp only [List.mem_filter, and_imp]
      constructor
      · intro found
        have valued := hasValueAt_of_keepAll found
        obtain ⟨decided, same⟩ := (onward valued).mp found
        exact ⟨fun node member => ⟨valued node member, decided node member⟩, same⟩
      · rintro ⟨decided, same⟩
        exact (onward fun node member => (decided node member).1).mpr
          ⟨fun node member => (decided node member).2, same⟩

end Deciding

end Expression

/-- The descendants of a node are its children and those of its descendants. -/
theorem mem_nodesBelow_iff {document : Document} {node other : Address} :
    other ∈ nodesBelow document node ↔
      ∃ middle ∈ node :: nodesBelow document node, other ∈ document.childrenOf middle := by
  by_cases held : document.Holds node
  · rw [mem_nodesBelow held, Relation.TransGen.tail'_iff]
    simp only [List.mem_cons, mem_nodesBelow held, mem_childrenOf,
      Relation.reflTransGen_iff_eq_or_transGen]
  · have nothing : document.itemAt? node = none :=
      Option.eq_none_iff_forall_not_mem.mpr fun item here => held ⟨item, here⟩
    simp [nodesBelow_eq, Document.descendantsOf, Document.childrenOf, nothing]

theorem NodeTest.admits_descendant (test : NodeTest) (document : Document) (node : Address) :
    test.admits .descendant document node = test.admits .child document node :=
  rfl

namespace Step

variable {document : Document} {root node target : Address}

section Single

variable {axis : Axis} {test : NodeTest} {predicates : List Expression}

/-- Where a step with predicates that ignore positions leads. -/
theorem nodesFrom_eq_ok_iff (ignoring : ∀ predicate ∈ predicates, predicate.IgnoresPositions)
    {found : List Address} :
    nodesFrom document root (.mk axis test predicates) node = .ok found ↔
      (∀ other ∈ axis.nodes document node, test.admits axis document other = true →
        Expression.DecideAbout document root predicates other) ∧
      found = ((axis.nodes document node).filter (test.admits axis document)).filter
        (Expression.areTrueAt document root predicates) := by
  simp only [nodesFrom, Expression.keepAll_eq_ok_iff ignoring, List.mem_filter, and_imp]

theorem completes_single_iff
    (ignoring : ∀ predicate ∈ predicates, predicate.IgnoresPositions) :
    Completes document root [.mk axis test predicates] node ↔
      ∀ other ∈ axis.nodes document node, test.admits axis document other = true →
        Expression.DecideAbout document root predicates other := by
  simp only [Completes, nodesFrom_eq_ok_iff ignoring, implies_true, and_true, exists_and_left,
    exists_eq]

theorem reaches_single_iff
    (ignoring : ∀ predicate ∈ predicates, predicate.IgnoresPositions)
    (completes : Completes document root [.mk axis test predicates] node) :
    Reaches document root [.mk axis test predicates] node target ↔
      target ∈ axis.nodes document node ∧ test.admits axis document target = true ∧
        Expression.areTrueAt document root predicates target = true := by
  have decided := (completes_single_iff ignoring).mp completes
  simp only [Reaches, nodesFrom_eq_ok_iff ignoring, and_iff_right decided, exists_eq_left,
    exists_eq_right', List.mem_filter, and_assoc]

end Single

section Anywhere

theorem completes_anywhere : Completes document root [anywhere] node :=
  (completes_single_iff (List.forall_mem_nil _)).mpr fun _ _ _ => trivial

theorem reaches_anywhere_iff :
    Reaches document root [anywhere] node target ↔ target ∈ node :: nodesBelow document node :=
  (reaches_single_iff (List.forall_mem_nil _) completes_anywhere).trans (and_iff_left ⟨rfl, rfl⟩)

end Anywhere

section Alike

variable (document root) in
/-- From any node some steps complete if others do, and then they lead to the same nodes. -/
structure Alike (first second : List Step) : Prop where
  completes_iff (node : Address) :
    Completes document root first node ↔ Completes document root second node
  reaches_iff (node target : Address) : Completes document root first node →
    (Reaches document root first node target ↔ Reaches document root second node target)

namespace Alike

variable {first second : List Step}

theorem append_left (alike : Alike document root first second) (before : List Step) :
    Alike document root (before ++ first) (before ++ second) where
  completes_iff node := by simp only [completes_append, alike.completes_iff]
  reaches_iff node target completes := by
    obtain ⟨_, onward⟩ := completes_append.mp completes
    rw [reaches_append, reaches_append]
    exact exists_congr fun middle => and_congr_right fun reached =>
      alike.reaches_iff middle target (onward middle reached)

theorem append_right (alike : Alike document root first second) (behind : List Step) :
    Alike document root (first ++ behind) (second ++ behind) where
  completes_iff node := by
    rw [completes_append, completes_append, ← alike.completes_iff]
    exact and_congr_right fun completes => forall_congr' fun middle => by
      rw [alike.reaches_iff node middle completes]
  reaches_iff node target completes := by
    obtain ⟨completes, _⟩ := completes_append.mp completes
    simp only [reaches_append, alike.reaches_iff node _ completes]

/-- Walks of steps that are alike agree. -/
theorem toOption_walk (alike : Alike document root first second) {nodes : List Address}
    (ascending : Address.Ascending nodes) :
    (walk document root first nodes).toOption = (walk document root second nodes).toOption := by
  refine Outcome.toOption_eq_of_agree ?_ fun found others walked otherWalked => ?_
  · simp only [walk_ok_iff, alike.completes_iff]
  · have completes := walk_ok_iff.mp ⟨found, walked⟩
    refine (ascending_of_walk walked ascending).eq_of_mem_iff
      (ascending_of_walk otherWalked ascending) fun target => ?_
    rw [mem_of_walk walked, mem_of_walk otherWalked]
    exact exists_congr fun node => and_congr_right fun member =>
      alike.reaches_iff node target (completes node member)

end Alike

/-- A step to descendants is like one to children from all nodes below, if its predicates ignore
positions. -/
theorem alike_descendant (document : Document) (root : Address) (test : NodeTest)
    {predicates : List Expression}
    (ignoring : ∀ predicate ∈ predicates, predicate.IgnoresPositions) :
    Alike document root [anywhere, .mk .child test predicates]
      [.mk .descendant test predicates] := by
  have split (node : Address) :
      Completes document root [anywhere, .mk .child test predicates] node ↔
        ∀ middle ∈ node :: nodesBelow document node,
          Completes document root [.mk .child test predicates] middle := by
    rw [← List.singleton_append, completes_append, and_iff_right completes_anywhere]
    simp only [reaches_anywhere_iff]
  have together (node : Address) :
      Completes document root [anywhere, .mk .child test predicates] node ↔
        Completes document root [.mk .descendant test predicates] node := by
    simp only [split, completes_single_iff ignoring, NodeTest.admits_descendant]
    constructor
    · intro each other member admitted
      obtain ⟨middle, inside, child⟩ := mem_nodesBelow_iff.mp member
      exact each middle inside other child admitted
    · exact fun each middle inside other child =>
        each other (mem_nodesBelow_iff.mpr ⟨middle, inside, child⟩)
  refine ⟨together, fun node target completes => ?_⟩
  have each := (split node).mp completes
  rw [reaches_single_iff ignoring ((together node).mp completes), NodeTest.admits_descendant,
    ← List.singleton_append, reaches_append]
  simp only [reaches_anywhere_iff]
  constructor
  · rintro ⟨middle, inside, reached⟩
    obtain ⟨child, passes⟩ := (reaches_single_iff ignoring (each middle inside)).mp reached
    exact ⟨mem_nodesBelow_iff.mpr ⟨middle, inside, child⟩, passes⟩
  · rintro ⟨member, passes⟩
    obtain ⟨middle, inside, child⟩ := mem_nodesBelow_iff.mp member
    exact ⟨middle, inside, (reaches_single_iff ignoring (each middle inside)).mpr ⟨child, passes⟩⟩

end Alike

end Step

namespace Expression

/-- A step to descendants is `//` with a step to children, wherever it stands in a path. From every
node, attributes among them, and for every test and all predicates that are no numbers and call
`position` and `last` in the predicates of nested steps only, the two steps and the single one
select the same nodes, or both fail. -/
theorem descendants_abbreviated (document : Document) (test : NodeTest)
    (predicates : List Expression)
    (ignoring : ∀ predicate ∈ predicates,
      predicate.isPositionFree = true ∧ predicate.type? ≠ some .number)
    (absolute : Bool) (before behind : List Step) (node root : Address) :
    let abbreviated : Expression :=
      .path absolute (before ++ [Step.anywhere, .mk .child test predicates] ++ behind)
    let direct : Expression :=
      .path absolute (before ++ [.mk .descendant test predicates] ++ behind)
    (∀ found, abbreviated.select document node root = .ok found ↔
      direct.select document node root = .ok found) ∧
    ((∃ cause, abbreviated.select document node root = .error cause) ↔
      ∃ cause, direct.select document node root = .error cause) := by
  intro abbreviated direct
  have alike := ((Step.alike_descendant document root test fun predicate member =>
    ⟨(ignoring predicate member).1, (ignoring predicate member).2⟩).append_left before).append_right
      behind
  have same : ∀ found, abbreviated.select document node root = .ok found ↔
      direct.select document node root = .ok found := by
    rw [← Outcome.toOption_eq_iff, select_path, select_path]
    exact alike.toOption_walk (Address.ascending_singleton _)
  refine ⟨same, ?_⟩
  rw [Outcome.eq_error_iff, Outcome.eq_error_iff, exists_congr same]

/-- The paths `..//b[c[last()]]` and `../descendant::b[c[last()]]` from an attribute, where one of
the elements found is in another one. -/
theorem descendants_abbreviated_nested :
    let document : Document :=
      ⟨[.element "a" [⟨"id", "1"⟩] [.element "b" []
          [.element "c" [] [] "", .element "b" [] [.element "c" [] [] ""] ""] "",
        .element "b" [] [] ""] ""], ""⟩
    let nested : Expression :=
      .path false [.mk .child (.name "c") [.call "last" []]]
    let entry : Address := [.child 0, .attr 0]
    nested.isPositionFree = true ∧ nested.type? ≠ some .number ∧
      (Expression.path false [.up, .anywhere, .mk .child (.name "b") [nested]]).select document
        entry [] = .ok [[.child 0, .child 0], [.child 0, .child 0, .child 1]] := by
  intro document nested entry
  have ignoring : nested.isPositionFree = true ∧ nested.type? ≠ some .number := ⟨rfl, by decide⟩
  have selected := descendants_abbreviated document (.name "b") [nested]
    (List.forall_mem_singleton.mpr ignoring) false [.up] [] entry []
  exact ⟨ignoring.1, ignoring.2, (selected.1 _).mpr (by decide +kernel)⟩

end Expression

end XPath

end XmlRecords
