import XmlRecords.Proofs.Binary64.Counting
import XmlRecords.Proofs.XPath.Typing

/-! # Comparisons of values

A comparison of two values comes down to comparisons of values that are no node-sets: a value is
compared as each of its comparands, which are the texts of the nodes for a node-set, and the value
itself otherwise. Against a truth value a node-set has a single comparand, its truth as a whole. A
comparison holds if it holds for some comparands of both sides (`Comparison.holds_iff`), and the
laws of comparisons are those of values with one comparand, carried over by this.
-/

namespace XmlRecords

namespace XPath

/-- The comparison that says the same with the sides exchanged. -/
def Comparison.mirrored : Comparison → Comparison
  | equal => equal
  | notEqual => notEqual
  | less => greater
  | lessOrEqual => greaterOrEqual
  | greater => less
  | greaterOrEqual => lessOrEqual

/-- What a value is compared as with another value. -/
def Value.comparands (document : Document) (value other : Value) : List Value :=
  match value, other with
  | .nodes found, .boolean _ => [.boolean (!found.isEmpty)]
  | .nodes found, _ => found.map fun node => .string (document.textAt node)
  | _, _ => [value]

section Comparands

variable {document : Document} {value other : Value} {found others : List Address}

theorem Value.comparands_nodes (proper : other.type ≠ .boolean) :
    (Value.nodes found).comparands document other =
      found.map fun node => .string (document.textAt node) := by
  cases other with
  | boolean truth => exact absurd rfl proper
  | _ => rfl

theorem Value.comparands_of_type_ne (atomic : value.type ≠ .nodes) :
    value.comparands document other = [value] := by
  cases value with
  | nodes found => exact absurd rfl atomic
  | _ => rfl

theorem Value.comparands_string (text : String) :
    (Value.string text).comparands document other = [.string text] :=
  rfl

/-- Only the comparison with a truth value is different from the others. -/
theorem Value.comparands_eq {first second : Value} (proper : first.type ≠ .boolean)
    (improper : second.type ≠ .boolean) :
    value.comparands document first = value.comparands document second := by
  cases value with
  | nodes found => rw [comparands_nodes proper, comparands_nodes improper]
  | _ => rfl

variable (document) in
/-- A node-set has a single comparand only where it is compared with a truth value. -/
theorem Value.exists_comparand (single : value.type ≠ .nodes ∨ other.type = .boolean) :
    ∃ comparand, value.comparands document other = [comparand] := by
  by_cases atomic : value.type = .nodes
  · have truth := single.resolve_left (not_not.mpr atomic)
    cases value with
    | nodes found =>
        cases other with
        | boolean truth => exact ⟨_, rfl⟩
        | _ => cases truth
    | _ => cases atomic
  · exact ⟨value, comparands_of_type_ne atomic⟩

variable (document other) in
/-- Only a node-set without nodes can have no comparand. -/
theorem Value.exists_mem_comparands (nonempty : value ≠ .nodes []) :
    ∃ comparand, comparand ∈ value.comparands document other := by
  cases value with
  | nodes found =>
      obtain ⟨node, member⟩ := List.exists_mem_of_ne_nil found fun empty => nonempty (by rw [empty])
      cases other with
      | boolean truth => exact ⟨_, List.mem_singleton_self _⟩
      | _ => exact ⟨_, List.mem_map_of_mem member⟩
  | _ => exact ⟨_, List.mem_singleton_self _⟩

variable (document) in
/-- Nodes with the same members have the same comparands, and are the same to other values. -/
theorem Value.comparands_congr (same : ∀ node, node ∈ found ↔ node ∈ others) (value : Value) :
    (∀ comparand, comparand ∈ (Value.nodes found).comparands document value ↔
      comparand ∈ (Value.nodes others).comparands document value) ∧
    value.comparands document (.nodes found) = value.comparands document (.nodes others) := by
  have empty : found.isEmpty = others.isEmpty := by
    rw [Bool.eq_iff_iff, List.isEmpty_iff, List.isEmpty_iff, List.eq_nil_iff_forall_not_mem,
      List.eq_nil_iff_forall_not_mem]
    simp only [same]
  refine ⟨fun comparand => ?_, by cases value <;> rfl⟩
  cases value with
  | boolean truth => simp only [comparands, empty]
  | _ => simp only [comparands, List.mem_map, same]

end Comparands

namespace Comparison

variable {document : Document} {comparison : Comparison} {left right : Value}

theorem equalAtoms_comm (document : Document) (left right : Value) :
    equalAtoms document left right = equalAtoms document right left := by
  cases left <;> cases right <;> exact BEq.comm

theorem holdsForAtoms_mirrored (comparison : Comparison) (document : Document)
    (left right : Value) :
    comparison.mirrored.holdsForAtoms document right left =
      comparison.holdsForAtoms document left right := by
  cases comparison with
  | equal => exact equalAtoms_comm document right left
  | notEqual => exact congrArg not (equalAtoms_comm document right left)
  | _ => rfl

/-- A comparison holds if it holds for some comparands. -/
theorem holds_iff :
    comparison.holds document left right = true ↔
      ∃ first ∈ left.comparands document right, ∃ second ∈ right.comparands document left,
        comparison.holdsForAtoms document first second = true := by
  cases left <;> cases right <;>
    simp only [holds, Value.comparands, List.any_eq_true, List.mem_singleton, List.mem_map,
      exists_eq_left, exists_exists_and_eq_and]

theorem holds_mirrored (comparison : Comparison) (document : Document) (left right : Value) :
    comparison.mirrored.holds document right left = comparison.holds document left right := by
  rw [Bool.eq_iff_iff, holds_iff, holds_iff]
  simp only [holdsForAtoms_mirrored]
  constructor
  · rintro ⟨second, inRight, first, inLeft, holds⟩
    exact ⟨first, inLeft, second, inRight, holds⟩
  · rintro ⟨first, inLeft, second, inRight, holds⟩
    exact ⟨second, inRight, first, inLeft, holds⟩

theorem holds_congr {found others : List Address} (same : ∀ node, node ∈ found ↔ node ∈ others)
    (comparison : Comparison) (value : Value) :
    comparison.holds document (.nodes found) value =
      comparison.holds document (.nodes others) value := by
  obtain ⟨members, facing⟩ := Value.comparands_congr document same value
  rw [Bool.eq_iff_iff, holds_iff, holds_iff, facing]
  simp only [members]

/-- Where both sides have a single comparand, one of the two comparisons for equality holds. -/
theorem notEqual_eq_not (leftSingle : left.type ≠ .nodes ∨ right.type = .boolean)
    (rightSingle : right.type ≠ .nodes ∨ left.type = .boolean) :
    notEqual.holds document left right = !equal.holds document left right := by
  obtain ⟨first, leftOnly⟩ := Value.exists_comparand document leftSingle
  obtain ⟨second, rightOnly⟩ := Value.exists_comparand document rightSingle
  have only (comparison : Comparison) :
      comparison.holds document left right = comparison.holdsForAtoms document first second := by
    rw [Bool.eq_iff_iff, holds_iff, leftOnly, rightOnly]
    simp only [List.mem_singleton, exists_eq_left]
  rw [only, only]
  rfl

/-- Where both sides have comparands, one of the two comparisons for equality holds. -/
theorem equal_or_notEqual (leftNonempty : left ≠ .nodes []) (rightNonempty : right ≠ .nodes []) :
    equal.holds document left right = true ∨ notEqual.holds document left right = true := by
  obtain ⟨first, inLeft⟩ := Value.exists_mem_comparands document right leftNonempty
  obtain ⟨second, inRight⟩ := Value.exists_mem_comparands document left rightNonempty
  cases same : equalAtoms document first second with
  | true => exact .inl (holds_iff.mpr ⟨first, inLeft, second, inRight, same⟩)
  | false =>
      exact .inr (holds_iff.mpr ⟨first, inLeft, second, inRight, congrArg not same⟩)

section NodeSets

variable {found others : List Address}

/-- A comparison of a node-set holds if it does for the text of some node. -/
theorem holds_nodes_left_iff (proper : right.type ≠ .boolean) :
    comparison.holds document (.nodes found) right = true ↔
      ∃ node ∈ found, comparison.holds document (.string (document.textAt node)) right = true := by
  simp only [holds_iff, Value.comparands_nodes proper, List.mem_map, exists_exists_and_eq_and]
  refine exists_congr fun node => and_congr_right fun _ => ?_
  have facing : right.comparands document (.nodes found) =
      right.comparands document (.string (document.textAt node)) :=
    Value.comparands_eq nofun nofun
  rw [facing, Value.comparands_string]
  simp only [List.mem_singleton, exists_eq_left]

theorem holds_nodes_right_iff (proper : left.type ≠ .boolean) :
    comparison.holds document left (.nodes found) = true ↔
      ∃ node ∈ found, comparison.holds document left (.string (document.textAt node)) = true := by
  rw [← holds_mirrored, holds_nodes_left_iff proper]
  simp only [holds_mirrored]

theorem holds_nodes_iff :
    comparison.holds document (.nodes found) (.nodes others) = true ↔
      ∃ first ∈ found, ∃ second ∈ others,
        comparison.holds document (.string (document.textAt first))
          (.string (document.textAt second)) = true := by
  have nodesProper : (Value.nodes others).type ≠ .boolean := nofun
  have textProper (text : String) : (Value.string text).type ≠ .boolean := nofun
  rw [holds_nodes_left_iff nodesProper]
  exact exists_congr fun first =>
    and_congr_right fun _ => holds_nodes_right_iff (textProper (document.textAt first))

/-- No comparison of a node-set without nodes holds. -/
theorem not_holds_nil (comparison : Comparison) (proper : right.type ≠ .boolean) :
    comparison.holds document (.nodes []) right = false := by
  rw [← Bool.not_eq_true, holds_nodes_left_iff proper]
  rintro ⟨node, member, _⟩
  exact List.not_mem_nil member

end NodeSets

/-- Comparisons are existential, symmetric and mirrored. Exchanging the sides of a comparison is
turning its sign around. Where neither side is a node-set, or one is a truth value, exactly one of
`=` and `!=` holds. Otherwise each comparison holds if it holds for the text of some node, or of
some pair of nodes; so none holds for a node-set without nodes, `=` or `!=` holds if there is no
such node-set, and the order and the repetition of the nodes do not matter. -/
theorem comparisons_existential (document : Document) :
    (∀ (comparison : Comparison) left right,
      comparison.mirrored.holds document right left = comparison.holds document left right) ∧
    (∀ left right : Value,
      left.type ≠ .nodes ∧ right.type ≠ .nodes ∨ left.type = .boolean ∨ right.type = .boolean →
        notEqual.holds document left right = !equal.holds document left right) ∧
    (∀ (comparison : Comparison) found value, value.type ≠ .boolean →
      (comparison.holds document (.nodes found) value = true ↔
        ∃ node ∈ found, comparison.holds document (.string (document.textAt node)) value = true) ∧
      (comparison.holds document value (.nodes found) = true ↔
        ∃ node ∈ found, comparison.holds document value (.string (document.textAt node)) = true)) ∧
    (∀ (comparison : Comparison) found others,
      comparison.holds document (.nodes found) (.nodes others) = true ↔
        ∃ first ∈ found, ∃ second ∈ others,
          comparison.holds document (.string (document.textAt first))
            (.string (document.textAt second)) = true) ∧
    (∀ (comparison : Comparison) value, value.type ≠ .boolean →
      comparison.holds document (.nodes []) value = false ∧
      comparison.holds document value (.nodes []) = false) ∧
    (∀ left right, left ≠ .nodes [] → right ≠ .nodes [] →
      equal.holds document left right = true ∨ notEqual.holds document left right = true) ∧
    ∀ found others, (∀ node, node ∈ found ↔ node ∈ others) → ∀ (comparison : Comparison) value,
      comparison.holds document (.nodes found) value =
        comparison.holds document (.nodes others) value ∧
      comparison.holds document value (.nodes found) =
        comparison.holds document value (.nodes others) := by
  refine ⟨fun comparison => holds_mirrored comparison document, ?_, ?_,
    fun _ _ _ => holds_nodes_iff, ?_, fun _ _ => equal_or_notEqual, ?_⟩
  · rintro left right (⟨leftAtomic, rightAtomic⟩ | leftTruth | rightTruth)
    · exact notEqual_eq_not (.inl leftAtomic) (.inl rightAtomic)
    · exact notEqual_eq_not (.inl (by rw [leftTruth]; exact nofun)) (.inr leftTruth)
    · exact notEqual_eq_not (.inr rightTruth) (.inl (by rw [rightTruth]; exact nofun))
  · exact fun comparison found value proper =>
      ⟨holds_nodes_left_iff proper, holds_nodes_right_iff proper⟩
  · intro comparison value proper
    exact ⟨not_holds_nil comparison proper,
      (holds_mirrored comparison document value _).symm.trans
        (not_holds_nil comparison.mirrored proper)⟩
  · intro found others same comparison value
    refine ⟨holds_congr same comparison value, ?_⟩
    rw [← holds_mirrored, holds_congr same, holds_mirrored]

/-- Two elements with the texts `x` and `y` in either order, and one of them twice. -/
theorem comparisons_existential_texts :
    let document : Document :=
      ⟨[.element "a" [] [.text "x" ""] "", .element "b" [] [.text "y" ""] ""], ""⟩
    let found : List Address := [[.child 0], [.child 1]]
    let repeated : List Address := [[.child 1], [.child 0], [.child 1]]
    equal.holds document (.nodes found) (.string "x") = true ∧
    notEqual.holds document (.string "x") (.nodes repeated) = true ∧
    equal.holds document (.nodes repeated) (.nodes found) = true ∧
    notEqual.holds document (.nodes found) (.boolean true) =
      !equal.holds document (.nodes found) (.boolean true) ∧
    notEqual.holds document (.nodes []) (.string "x") = false ∧
    (equal.holds document (.nodes found) (.number 1) = true ∨
      notEqual.holds document (.nodes found) (.number 1) = true) ∧
    less.holds document (.nodes repeated) (.number 1) =
      less.holds document (.nodes found) (.number 1) := by
  intro document found repeated
  obtain ⟨_, negated, single, pairs, empty, either, same⟩ := comparisons_existential document
  have nonempty : Value.nodes found ≠ .nodes [] := fun none => nomatch Value.nodes.inj none
  refine ⟨(single equal found (.string "x") nofun).1.mpr ⟨[.child 0], by decide, rfl⟩,
    (single notEqual repeated (.string "x") nofun).2.mpr ⟨[.child 1], by decide, rfl⟩,
    (pairs equal repeated found).mpr ⟨[.child 0], by decide, [.child 0], by decide, rfl⟩,
    negated _ _ (.inr (.inr rfl)), (empty notEqual (.string "x") nofun).1,
    either (.nodes found) (.number 1) nonempty nofun,
    (same repeated found (fun node => ?_) less _).1⟩
  simp only [repeated, found, List.mem_cons, List.not_mem_nil, or_false]
  tauto

end Comparison

end XPath

end XmlRecords
