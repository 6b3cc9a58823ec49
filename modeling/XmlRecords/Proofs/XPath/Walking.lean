import XmlRecords.Proofs.Document.Order
import XmlRecords.Proofs.Outcome

/-! # Where steps lead

A walk takes each step from all nodes reached so far before it takes the next one, and puts what it
has found into document order. Here steps are taken from one node at a time, all the way down:
`Step.Reaches` says where they lead, and `Step.Completes` that no error is met anywhere. A walk
succeeds exactly if the steps complete from every node it starts from, and finds exactly the nodes
that they reach (`Step.walk_ok_iff`, `Step.mem_of_walk`). Both notions are compositional in the list
of steps, so that a path composes.
-/

namespace XmlRecords

namespace XPath

namespace Step

section Walk

variable (document : Document) (root : Address)

/-- The steps meet no error, taken one behind the other from a node and from all that they reach. -/
def Completes : List Step → Address → Prop
  | [], _ => True
  | step :: steps, node =>
      ∃ found, nodesFrom document root step node = .ok found ∧
        ∀ next ∈ found, Completes steps next

/-- The steps, taken one behind the other, lead from a node to another one. -/
def Reaches : List Step → Address → Address → Prop
  | [], node, target => target = node
  | step :: steps, node, target =>
      ∃ found, nodesFrom document root step node = .ok found ∧
        ∃ next ∈ found, Reaches steps next target

variable {document root}

/-- A walk succeeds if its steps complete from every node it starts from, and only then. -/
theorem walk_ok_iff {steps : List Step} {nodes : List Address} :
    (∃ found, walk document root steps nodes = .ok found) ↔
      ∀ node ∈ nodes, Completes document root steps node := by
  induction steps generalizing nodes with
  | nil => simp only [walk, Except.ok.injEq, exists_eq', Completes, implies_true]
  | cons step steps ih =>
      simp only [walk, Outcome.bind_eq_ok, Completes]
      constructor
      · rintro ⟨found, merged, collected, walked⟩ node member
        obtain ⟨part, here⟩ := collect_ok_iff.mp ⟨merged, collected⟩ node member
        refine ⟨part, here, fun next inPart => ih.mp ⟨found, walked⟩ next ?_⟩
        rw [Address.mem_inOrder, mem_of_collect collected]
        exact ⟨node, member, part, here, inPart⟩
      · intro completes
        obtain ⟨merged, collected⟩ := collect_ok_iff.mpr fun node member =>
          (completes node member).imp fun _ => And.left
        have onward : ∀ next ∈ Address.inOrder merged, Completes document root steps next := by
          intro next inMerged
          obtain ⟨node, member, part, here, inPart⟩ :=
            (mem_of_collect collected).mp (Address.mem_inOrder.mp inMerged)
          obtain ⟨found, there, completed⟩ := completes node member
          cases here.symm.trans there
          exact completed next inPart
        obtain ⟨found, walked⟩ := ih.mpr onward
        exact ⟨found, merged, collected, walked⟩

/-- A walk finds the nodes that its steps reach from the nodes it starts from. -/
theorem mem_of_walk {steps : List Step} {nodes found : List Address}
    (walked : walk document root steps nodes = .ok found) {target : Address} :
    target ∈ found ↔ ∃ node ∈ nodes, Reaches document root steps node target := by
  induction steps generalizing nodes with
  | nil =>
      cases walked
      simp only [Reaches, exists_eq_right']
  | cons step steps ih =>
      simp only [walk, Outcome.bind_eq_ok] at walked
      obtain ⟨merged, collected, walked⟩ := walked
      simp only [ih walked, Address.mem_inOrder, mem_of_collect collected, Reaches]
      constructor
      · rintro ⟨next, ⟨node, member, part, here, inPart⟩, reached⟩
        exact ⟨node, member, part, here, next, inPart, reached⟩
      · rintro ⟨node, member, part, here, next, inPart, reached⟩
        exact ⟨next, ⟨node, member, part, here, inPart⟩, reached⟩

/-- A walk from nodes in document order ends with nodes in document order. -/
theorem ascending_of_walk {steps : List Step} {nodes found : List Address}
    (walked : walk document root steps nodes = .ok found) (ascending : Address.Ascending nodes) :
    Address.Ascending found := by
  induction steps generalizing nodes with
  | nil =>
      cases walked
      exact ascending
  | cons step steps ih =>
      simp only [walk, Outcome.bind_eq_ok] at walked
      obtain ⟨merged, _, walked⟩ := walked
      exact ih walked (Address.ascending_inOrder merged)

/-- A walk can be interrupted after any step. -/
theorem walk_append {first second : List Step} {nodes : List Address} :
    walk document root (first ++ second) nodes =
      walk document root first nodes >>= walk document root second := by
  induction first generalizing nodes with
  | nil => rfl
  | cons step steps ih =>
      simp only [List.cons_append, walk, ih]
      cases collect (fun node => nodesFrom document root step node) nodes <;> rfl

/-- Steps behind other steps complete if they do from every node that those reach. -/
theorem completes_append {first second : List Step} {node : Address} :
    Completes document root (first ++ second) node ↔
      Completes document root first node ∧
        ∀ middle, Reaches document root first node middle →
          Completes document root second middle := by
  induction first generalizing node with
  | nil => simp only [List.nil_append, Completes, Reaches, true_and, forall_eq]
  | cons step steps ih =>
      simp only [List.cons_append, Completes, Reaches, ih]
      constructor
      · rintro ⟨found, here, onward⟩
        refine ⟨⟨found, here, fun next member => (onward next member).1⟩, ?_⟩
        rintro middle ⟨other, there, next, member, reached⟩
        cases here.symm.trans there
        exact (onward next member).2 middle reached
      · rintro ⟨⟨found, here, onward⟩, behind⟩
        exact ⟨found, here, fun next member => ⟨onward next member, fun middle reached =>
          behind middle ⟨found, here, next, member, reached⟩⟩⟩

theorem reaches_append {first second : List Step} {node target : Address} :
    Reaches document root (first ++ second) node target ↔
      ∃ middle, Reaches document root first node middle ∧
        Reaches document root second middle target := by
  induction first generalizing node with
  | nil => simp only [List.nil_append, Reaches, exists_eq_left]
  | cons step steps ih =>
      simp only [List.cons_append, Reaches, ih]
      constructor
      · rintro ⟨found, here, next, member, middle, reached, onward⟩
        exact ⟨middle, ⟨found, here, next, member, reached⟩, onward⟩
      · rintro ⟨middle, ⟨found, here, next, member, reached⟩, onward⟩
        exact ⟨found, here, next, member, middle, reached, onward⟩

end Walk

end Step

namespace Expression

/-- The nodes that a path selects from a node are those that it walks to from its start. -/
theorem select_path {document : Document} {absolute : Bool} {steps : List Step}
    {node root : Address} :
    (path absolute steps).select document node root =
      Step.walk document root steps [if absolute then root else node] := by
  simp only [select, evaluate]
  cases Step.walk document root steps [if absolute then root else node] <;> rfl

section Path

variable {document : Document} {steps : List Step} {node root : Address}

/-- A relative path has a value at a node exactly if its steps complete from there. -/
theorem select_path_ok_iff :
    (∃ found, (path false steps).select document node root = .ok found) ↔
      Step.Completes document root steps node := by
  rw [select_path, Step.walk_ok_iff]
  simp only [Bool.false_eq_true, ↓reduceIte, List.mem_singleton, forall_eq]

theorem mem_of_select_path {found : List Address}
    (selected : (path false steps).select document node root = .ok found) {target : Address} :
    target ∈ found ↔ Step.Reaches document root steps node target := by
  rw [select_path] at selected
  rw [Step.mem_of_walk selected]
  simp only [Bool.false_eq_true, ↓reduceIte, List.mem_singleton, exists_eq_left]

theorem select_path_error_iff :
    (∃ cause, (path false steps).select document node root = .error cause) ↔
      ¬Step.Completes document root steps node := by
  rw [Outcome.eq_error_iff, select_path_ok_iff]

/-- Some node is among those that a relative path selects, said of its steps. -/
theorem exists_select_path_iff (completes : Step.Completes document root steps node)
    {target : Address} :
    (∃ found, (path false steps).select document node root = .ok found ∧ target ∈ found) ↔
      Step.Reaches document root steps node target := by
  constructor
  · rintro ⟨found, selected, member⟩
    exact (mem_of_select_path selected).mp member
  · intro reached
    obtain ⟨found, selected⟩ := select_path_ok_iff.mpr completes
    exact ⟨found, selected, (mem_of_select_path selected).mpr reached⟩

end Path

/-- Relative paths compose. What the steps of two paths select one behind the other is what the
second path selects from the nodes that the first one selects, and they fail together exactly if the
first path fails or the second one fails from one of those nodes. -/
theorem select_append (document : Document) (first second : List Step) (node root : Address) :
    (∀ found, (path false (first ++ second)).select document node root = .ok found →
      ∀ target, target ∈ found ↔
        ∃ middles, (path false first).select document node root = .ok middles ∧
          ∃ middle ∈ middles, ∃ reached,
            (path false second).select document middle root = .ok reached ∧ target ∈ reached) ∧
    ((∃ cause, (path false (first ++ second)).select document node root = .error cause) ↔
      (∃ cause, (path false first).select document node root = .error cause) ∨
        ∃ middles, (path false first).select document node root = .ok middles ∧
          ∃ middle ∈ middles, ∃ cause,
            (path false second).select document middle root = .error cause) := by
  constructor
  · intro found selected target
    obtain ⟨completes, onward⟩ :=
      Step.completes_append.mp (select_path_ok_iff.mp ⟨found, selected⟩)
    obtain ⟨middles, firstSelected⟩ := select_path_ok_iff.mpr completes
    rw [mem_of_select_path selected, Step.reaches_append]
    simp only [firstSelected, Except.ok.injEq, exists_eq_left', mem_of_select_path firstSelected]
    refine exists_congr fun middle => and_congr_right fun reached => ?_
    exact (exists_select_path_iff (onward middle reached)).symm
  · simp only [select_path_error_iff, Step.completes_append, not_and_or, not_forall]
    refine or_congr_right' fun completes => ?_
    obtain ⟨middles, firstSelected⟩ := select_path_ok_iff.mpr (not_not.mp completes)
    simp only [firstSelected, Except.ok.injEq, exists_eq_left', mem_of_select_path firstSelected,
      exists_prop]

/-- The paths `descendant::*` and `preceding-sibling::node()[not(self::comment())]` behind each
other, from the root of a document. -/
theorem select_append_siblings :
    let document : Document :=
      ⟨[.element "a" [] [.element "b" [] [] "", .element "c" [] [] ""] "", .comment "" "",
        .element "d" [] [] ""], ""⟩
    let first : List Step := [.mk .descendant .any []]
    let second : List Step :=
      [.mk .precedingSibling .node [.call "not" [.path false [.mk .self .comment []]]]]
    ∃ found, (path false (first ++ second)).select document [] [] = .ok found ∧
      ∀ target, target ∈ found ↔
        ∃ middles, (path false first).select document [] [] = .ok middles ∧
          ∃ middle ∈ middles, ∃ reached,
            (path false second).select document middle [] = .ok reached ∧ target ∈ reached :=
  ⟨[[.child 0], [.child 0, .child 0]], rfl, (select_append _ _ _ _ _).1 _ rfl⟩

end Expression

end XPath

end XmlRecords
