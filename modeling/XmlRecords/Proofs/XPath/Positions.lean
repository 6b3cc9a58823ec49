import XmlRecords.Proofs.Binary64.Counting
import XmlRecords.Proofs.XPath.Axes
import XmlRecords.Proofs.XPath.Focus

/-! # Predicates and positions

A predicate looks at the nodes that the predicates before it have left, with their positions among
them, the nearest first (`Expression.keepAll_singleton_eq_ok_iff`). A number keeps the node at the
position that it equals, and this is one node only, since positions below `2 ^ 53` are exact as
numbers (`Binary64.ofNat_beq_ofNat_iff`). A comparison of `position()` with a truth value takes the
position for a truth value, and all positions are true: so it comes to the truth value itself
(`Expression.holds_position`).
-/

namespace XmlRecords

namespace XPath

namespace Expression

section Predicate

variable (document : Document) (root : Address)

/-- The focus at which a predicate looks at a node of a list: with the position of the node, counted
from one, and the length of the list. -/
def focusIn (nodes : List Address) (entry : Address × Nat) : Focus :=
  ⟨entry.1, root, entry.2, nodes.length⟩

/-- A predicate keeps a node of a list for its value there. -/
def isKeptIn (predicate : Expression) (nodes : List Address) (entry : Address × Nat) : Bool :=
  match predicate.evaluate document (focusIn root nodes entry) with
  | .ok value => value.keeps entry.2
  | .error _ => false

/-- What a predicate leaves of a node in a list: the node, or nothing. -/
def leftIn (predicate : Expression) (nodes : List Address) (entry : Address × Nat) :
    Except Error (List Address) := do
  let value ← predicate.evaluate document (focusIn root nodes entry)
  return if value.keeps entry.2 then [entry.1] else []

variable {document root} {predicate : Expression} {nodes kept : List Address}
  {entry : Address × Nat} {cause : Error}

/-- The value of a predicate tells whether the node is left. -/
theorem leftIn_of_evaluate {value : Value}
    (evaluated : predicate.evaluate document (focusIn root nodes entry) = .ok value) :
    predicate.leftIn document root nodes entry =
      .ok (if value.keeps entry.2 then [entry.1] else []) := by
  rw [leftIn, evaluated]
  rfl

/-- A predicate fails on a node just if its evaluation does. -/
theorem exists_leftIn_iff :
    (∃ part, predicate.leftIn document root nodes entry = .ok part) ↔
      ∃ value, predicate.evaluate document (focusIn root nodes entry) = .ok value := by
  constructor
  · rintro ⟨part, here⟩
    obtain ⟨value, evaluated, -⟩ := Outcome.bind_eq_ok.mp here
    exact ⟨value, evaluated⟩
  · rintro ⟨value, evaluated⟩
    exact ⟨_, leftIn_of_evaluate evaluated⟩

theorem leftIn_eq_error_iff :
    predicate.leftIn document root nodes entry = .error cause ↔
      predicate.evaluate document (focusIn root nodes entry) = .error cause := by
  rw [leftIn, Outcome.bind_eq_error]
  simp only [pure, Except.pure, reduceCtorEq, and_false, exists_false, or_false]

/-- One predicate is tried on each node at its position. -/
theorem keepAll_singleton (predicate : Expression) (nodes : List Address) :
    keepAll document root [predicate] nodes =
      collect (predicate.leftIn document root nodes) (nodes.zipIdx 1) := by
  rw [List.zipIdx_succ, collect_map, keepAll]
  exact bind_pure _

/-- The nodes that a predicate leaves of a list: it has values at all of them, each with its
position there, and leaves those that it keeps. -/
structure Leaves (document : Document) (root : Address) (predicate : Expression)
    (nodes kept : List Address) : Prop where
  valued : ∀ entry ∈ nodes.zipIdx 1, ∃ value,
    predicate.evaluate document (focusIn root nodes entry) = .ok value
  members : kept = ((nodes.zipIdx 1).filter (predicate.isKeptIn document root nodes)).map Prod.fst

/-- A predicate fails in a list with the error at the first node at which it has no value. -/
def FailsIn (document : Document) (root : Address) (predicate : Expression) (nodes : List Address)
    (cause : Error) : Prop :=
  ∃ before entry behind, nodes.zipIdx 1 = before ++ entry :: behind ∧
    (∀ earlier ∈ before, ∃ value,
      predicate.evaluate document (focusIn root nodes earlier) = .ok value) ∧
    predicate.evaluate document (focusIn root nodes entry) = .error cause

/-- A predicate keeps the nodes on which it is true or a number that is their position. -/
theorem keepAll_singleton_eq_ok_iff :
    keepAll document root [predicate] nodes = .ok kept ↔
      predicate.Leaves document root nodes kept := by
  have collected (valued : ∀ entry ∈ nodes.zipIdx 1, ∃ value,
      predicate.evaluate document (focusIn root nodes entry) = .ok value) :
      keepAll document root [predicate] nodes =
        .ok (((nodes.zipIdx 1).filter (predicate.isKeptIn document root nodes)).map Prod.fst) := by
    rw [keepAll_singleton]
    refine collect_eq_filter _ fun entry member => ?_
    obtain ⟨value, evaluated⟩ := valued entry member
    rw [leftIn_of_evaluate evaluated, isKeptIn, evaluated]
  constructor
  · intro found
    have valued : ∀ entry ∈ nodes.zipIdx 1, ∃ value,
        predicate.evaluate document (focusIn root nodes entry) = .ok value := by
      intro entry member
      rw [keepAll_singleton] at found
      exact exists_leftIn_iff.mp (collect_ok_iff.mp ⟨kept, found⟩ entry member)
    exact ⟨valued, Except.ok.inj (found.symm.trans (collected valued))⟩
  · rintro ⟨valued, rfl⟩
    exact collected valued

theorem keepAll_singleton_eq_error_iff :
    keepAll document root [predicate] nodes = .error cause ↔
      predicate.FailsIn document root nodes cause := by
  rw [keepAll_singleton, collect_eq_error_iff, FailsIn]
  simp only [exists_leftIn_iff, leftIn_eq_error_iff]

end Predicate

section Number

variable {document : Document} {root : Address} {predicate : Expression} {nodes : List Address}

/-- The member of a list with a number, if the members are numbered one after another. -/
theorem filter_zipIdx {α : Type} (members : List α) (start index : Nat) :
    ((members.zipIdx start).filter fun entry => decide (start + index = entry.2)).map Prod.fst =
      members[index]?.toList := by
  induction members generalizing start index with
  | nil => rfl
  | cons member members ih =>
      rw [List.zipIdx_cons]
      cases index with
      | zero =>
          have later : ((members.zipIdx (start + 1)).filter fun entry =>
              decide (start + 0 = entry.2)) = [] := by
            refine List.filter_eq_nil_iff.mpr fun entry member here => ?_
            have beyond := List.le_snd_of_mem_zipIdx member
            exact absurd (of_decide_eq_true here) (by omega)
          rw [List.filter_cons_of_pos (by simp), later]
          rfl
      | succ index =>
          rw [List.filter_cons_of_neg (by simp), List.getElem?_cons_succ, ← ih (start + 1) index,
            Nat.add_right_comm, Nat.add_assoc]

/-- A predicate with the same number at all nodes keeps the node at this position. -/
theorem keepAll_number {number : Nat} (positive : 0 < number) (bound : nodes.length < 2 ^ 53)
    (valued : ∀ entry, predicate.evaluate document (focusIn root nodes entry) =
      .ok (.number (Binary64.ofNat number))) :
    keepAll document root [predicate] nodes = .ok nodes[number - 1]?.toList := by
  rw [keepAll_singleton, ← filter_zipIdx nodes 1 (number - 1), Nat.add_sub_cancel' positive]
  refine collect_eq_filter _ fun entry member => ?_
  have least := List.le_snd_of_mem_zipIdx member
  have most := List.snd_lt_add_of_mem_zipIdx member
  have keeps :
      (Value.number (Binary64.ofNat number)).keeps entry.2 = decide (number = entry.2) := by
    rw [Bool.eq_iff_iff, decide_eq_true_iff]
    exact Binary64.ofNat_beq_ofNat_iff positive least (by omega)
  rw [leftIn_of_evaluate (valued entry), keeps]

/-- The last position is the number of nodes, which is exact below `2 ^ 53`. -/
theorem keepAll_last (bound : nodes.length < 2 ^ 53) :
    keepAll document root [.call "last" []] nodes = .ok nodes.getLast?.toList := by
  cases nodes with
  | nil => rfl
  | cons node nodes =>
      rw [keepAll_number (Nat.zero_lt_succ nodes.length) bound, List.getLast?_eq_getElem?]
      · rfl
      · exact fun entry => rfl

end Number

section Position

variable {document : Document} {root : Address} {predicate : Expression}

/-- The predicate is a comparison of the position with an expression. -/
def positionEquals (expression : Expression) : Expression :=
  .binary (.compare .equal) (.call "position" []) expression

/-- The position is compared with the value of the predicate. -/
theorem evaluate_positionEquals (focus : Focus) :
    (positionEquals predicate).evaluate document focus = (do
      let value ← predicate.evaluate document focus
      return .boolean (Comparison.equal.holds document
        (.number (Binary64.ofNat focus.position)) value)) :=
  rfl

/-- A number or truth value is equal to a position exactly if it keeps the node there. -/
theorem holds_position {value : Value} (atomic : value.type = .number ∨ value.type = .boolean)
    {position : Nat} (positive : 0 < position) :
    Comparison.equal.holds document (.number (Binary64.ofNat position)) value =
      value.keeps position := by
  cases value with
  | nodes found => simp [Value.type] at atomic
  | string text => simp [Value.type] at atomic
  | number real => exact Binary64.beq_comm _ _
  | boolean truth =>
      have proper := Binary64.isProper_ofNat positive
      change ((Binary64.ofNat position != 0 && !(Binary64.ofNat position).isNaN) == truth) = truth
      rw [proper.bne_zero, proper.isNaN_eq_false]
      cases truth <;> rfl

/-- Compared with the position, a number keeps the node that it keeps by itself, and a truth value
equals any position if it is true. -/
theorem keepAll_positionEquals (atomic : predicate.type? = some .number ∨
    predicate.type? = some .boolean) (nodes : List Address) :
    keepAll document root [positionEquals predicate] nodes =
      keepAll document root [predicate] nodes := by
  rw [keepAll_singleton, keepAll_singleton]
  refine collect_congr fun entry member => ?_
  cases evaluated : predicate.evaluate document (focusIn root nodes entry) with
  | error cause =>
      rw [leftIn_eq_error_iff.mpr evaluated, leftIn_eq_error_iff]
      rw [evaluate_positionEquals, evaluated]
      rfl
  | ok value =>
      have compared : (positionEquals predicate).evaluate document (focusIn root nodes entry) =
          .ok (.boolean
            (Comparison.equal.holds document (.number (Binary64.ofNat entry.2)) value)) := by
        rw [evaluate_positionEquals, evaluated]
        rfl
      rw [type?_of_evaluate evaluated, Option.some.injEq, Option.some.injEq] at atomic
      rw [leftIn_of_evaluate evaluated, leftIn_of_evaluate compared,
        holds_position atomic (List.le_snd_of_mem_zipIdx member)]
      rfl

end Position

/-- Predicates are applied to the nodes on an axis that pass the test, the nearest first, from left
to right: each of them leaves nodes of the list that the ones before it have left, with the
positions in that list, or fails at the first of its nodes that it has no value for. So `[k]` alone
keeps the node with this number of the nodes, if there are so many, and `[last()]` the last one. A
predicate that is a number or a truth value can be replaced by its comparison with `position()`. -/
theorem predicates_count_positions (document : Document) (root node : Address) (axis : Axis)
    (test : NodeTest) :
    let candidates := (axis.nodes document node).filter (test.admits axis document)
    let leads (predicates : List Expression) : Except Error (List Address) :=
      Step.nodesFrom document root (.mk axis test predicates) node
    (document.Holds node →
      (∀ other, other ∈ candidates ↔
        axis.Leads document node other ∧ test.admits axis document other = true) ∧
      axis.IsInOrder (fun first second => first.precedes second = true) candidates) ∧
    leads [] = .ok candidates ∧
    (∀ (predicates : List Expression) (predicate : Expression),
      (∀ found, leads (predicates ++ [predicate]) = .ok found ↔
        ∃ kept, leads predicates = .ok kept ∧ predicate.Leaves document root kept found) ∧
      ∀ cause, leads (predicates ++ [predicate]) = .error cause ↔
        leads predicates = .error cause ∨
          ∃ kept, leads predicates = .ok kept ∧ predicate.FailsIn document root kept cause) ∧
    (candidates.length < 2 ^ 53 →
      (∀ number, 0 < number →
        leads [.number (Binary64.ofNat number)] = .ok candidates[number - 1]?.toList) ∧
      leads [.call "last" []] = .ok candidates.getLast?.toList) ∧
    ∀ (before behind : List Expression) (predicate : Expression),
      predicate.type? = some .number ∨ predicate.type? = some .boolean →
      leads (before ++ predicate :: behind) =
        leads (before ++ positionEquals predicate :: behind) := by
  intro candidates leads
  refine ⟨fun held => ⟨fun other => ?_, ?_⟩, rfl, fun predicates predicate => ?_, ?_, ?_⟩
  · rw [List.mem_filter, Axis.mem_nodes held]
  · exact (Axis.nodes_isInOrder held axis).filter _
  · have oneByOne : leads (predicates ++ [predicate]) =
        leads predicates >>= keepAll document root [predicate] := keepAll_append
    simp only [oneByOne, Outcome.bind_eq_ok, Outcome.bind_eq_error, keepAll_singleton_eq_ok_iff,
      keepAll_singleton_eq_error_iff, implies_true, and_self]
  · intro bound
    exact ⟨fun number positive => keepAll_number positive bound fun entry => rfl,
      keepAll_last bound⟩
  · intro before behind predicate atomic
    have chosenFirst (chosen : Expression) (nodes : List Address) :
        keepAll document root (chosen :: behind) nodes =
          keepAll document root [chosen] nodes >>= keepAll document root behind := by
      rw [← List.singleton_append, keepAll_append]
    have exchanged : keepAll document root (predicate :: behind) =
        keepAll document root (positionEquals predicate :: behind) := by
      funext nodes
      rw [chosenFirst, chosenFirst, keepAll_positionEquals atomic]
    simp only [leads, Step.nodesFrom, keepAll_append, exchanged]

/-- The siblings before the last of three elements, with a text among them: `[2]`, `[last()]` and
`[3]`, the position of a node after `[2]`, and `[last() - position()]`. -/
theorem predicates_count_positions_siblings :
    let document : Document :=
      ⟨[.element "a" []
        [.element "b" [] [] "", .text "t" "", .element "c" [] [] "", .element "d" [] [] ""] ""], ""⟩
    let node : Address := [.child 0, .child 3]
    let leads (predicates : List Expression) : Except Error (List Address) :=
      Step.nodesFrom document [] (.mk .precedingSibling .any predicates) node
    let number (whole : Nat) : Expression := .number (Binary64.ofNat whole)
    let last : Expression := .call "last" []
    let difference : Expression := .binary .minus last (.call "position" [])
    (document.Holds node ∧ Axis.precedingSibling.Leads document node [.child 0, .child 2]) ∧
      leads [] = .ok [[.child 0, .child 2], [.child 0, .child 0]] ∧
      leads [number 2] = .ok [[.child 0, .child 0]] ∧
      leads [last] = .ok [[.child 0, .child 0]] ∧
      leads [number 3] = .ok [] ∧
      leads [number 2, last] = .ok [[.child 0, .child 0]] ∧
      last.Leaves document [] [[.child 0, .child 0]] [[.child 0, .child 0]] ∧
      difference.type? = some .number ∧
      leads [difference] = .ok [[.child 0, .child 2]] ∧
      leads [positionEquals difference] = .ok [[.child 0, .child 2]] := by
  intro document node leads number last difference
  have held : document.Holds node := ⟨_, rfl⟩
  obtain ⟨order, start, oneByOne, literals, positions⟩ :=
    predicates_count_positions document [] node .precedingSibling .any
  have nearest : Axis.precedingSibling.Leads document node [.child 0, .child 2] :=
    (((order held).1 _).mp (by decide)).1
  obtain ⟨numbers, final⟩ := literals (by decide)
  have second := numbers 2 (by decide)
  have renumbered : leads ([number 2] ++ [last]) = .ok [[.child 0, .child 0]] := by
    decide +kernel
  obtain ⟨kept, before, leaves⟩ := ((oneByOne [number 2] last).1 _).mp renumbered
  cases second.symm.trans before
  have differs : leads [difference] = .ok [[.child 0, .child 2]] := by
    decide +kernel
  exact ⟨⟨held, nearest⟩, start, second, final, numbers 3 (by decide), renumbered, leaves, rfl,
    differs, (positions [] [] difference (.inl rfl)).symm.trans differs⟩

end Expression

end XPath

end XmlRecords
