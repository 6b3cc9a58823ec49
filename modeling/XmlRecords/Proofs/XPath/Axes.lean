import XmlRecords.Proofs.Document.Numbering
import XmlRecords.XPath.Axis

/-! # What the axes list

Each axis lists the nodes that stand in its relation to a node, each once, and in proximity order:
document order for the axes that lead forwards, the reverse for the others (`Axis.nodes_exact`). The
relations are those of the tree, parents and children and their closures; siblings are told apart by
document order.

The walk down visits the subtrees of the nodes on its stack one after the other, from the top on
(`walkDown_eq`), and its bound is the number of nodes that there are to visit. A scan of the
children of a parent stops at the right place whenever the test that it uses tells the node from its
siblings, as the keys of nodes do that are numbered in pre-order.
-/

namespace XmlRecords

namespace XPath

namespace Axis

/-- An axis leads from a node to another one. -/
def Leads (axis : Axis) (document : Document) (node other : Address) : Prop :=
  match axis with
  | child => document.IsChild node other
  | attr => document.IsAttribute node other
  | self => other = node
  | parent => document.IsParent other node
  | descendant => Relation.TransGen document.IsChild node other
  | descendantOrSelf => other = node ∨ Relation.TransGen document.IsChild node other
  | ancestor => Relation.TransGen (fun lower upper => document.IsParent upper lower) node other
  | ancestorOrSelf =>
      other = node ∨
        Relation.TransGen (fun lower upper => document.IsParent upper lower) node other
  | followingSibling =>
      (∃ above, document.IsChild above node ∧ document.IsChild above other) ∧
        node.precedes other = true
  | precedingSibling =>
      (∃ above, document.IsChild above node ∧ document.IsChild above other) ∧
        other.precedes node = true

/-- Nodes on an axis follow each other in a given order, or in its reverse if the axis leads
backwards. -/
def IsInOrder (axis : Axis) (before : Address → Address → Prop) (nodes : List Address) : Prop :=
  nodes.Pairwise fun nearer farther =>
    if axis.isReverse then before farther nearer else before nearer farther

end Axis

section Members

variable {document : Document} {node other : Address}

theorem mem_childrenOf : other ∈ document.childrenOf node ↔ document.IsChild node other := by
  rw [Document.isChild_iff]
  cases here : document.itemAt? node with
  | none => simp [Document.childrenOf, here]
  | some item =>
      simp only [Document.childrenOf, here, Option.map_some, Option.getD_some, List.mem_map,
        List.mem_range, Option.some.injEq, exists_and_left, exists_eq_left', eq_comm]

theorem mem_attributesOf :
    other ∈ document.attributesOf node ↔ document.IsAttribute node other := by
  rw [Document.isAttribute_iff]
  cases here : document.itemAt? node with
  | none => simp [Document.attributesOf, here]
  | some item =>
      simp only [Document.attributesOf, here, Option.map_some, Option.getD_some, List.mem_map,
        List.mem_range, Option.some.injEq, exists_and_left, exists_eq_left', eq_comm]

theorem parentOf_concat (above : Address) (place : Place) :
    parentOf (above ++ [place]) = some above := by
  rw [parentOf, List.dropLast_concat, List.isEmpty_eq_false_iff.mpr (List.concat_ne_nil _ _)]
  rfl

/-- The address without its last place is that of the parent. -/
theorem mem_parentOf (held : document.Holds node) :
    other ∈ parentOf node ↔ document.IsParent other node := by
  cases node using List.reverseRecOn with
  | nil =>
      refine ⟨nofun, ?_⟩
      rintro ⟨item, place, below, _, _, same⟩
      exact absurd same.symm (List.concat_ne_nil _ _)
  | append_singleton above place =>
      rw [parentOf_concat, Option.mem_some_iff]
      constructor
      · rintro rfl
        exact held.isParent
      · rintro ⟨item, _, below, _, _, same⟩
        exact List.append_inj_left' same rfl

end Members

section Walks

variable {document : Document} {node other : Address}

/-- One step of the walk down: the top of the stack is visited, and its children take its place. -/
theorem walkDown_concat (document : Document) (limit : Nat) (stack : List Address)
    (current : Address) :
    walkDown document (limit + 1) (stack ++ [current]) =
      current :: walkDown document limit (stack ++ (document.childrenOf current).reverse) := by
  rw [walkDown, List.getLast?_concat, List.dropLast_concat]

/-- What a stack stands for is left unchanged by a step but for the node that is visited. -/
theorem subtrees_concat (document : Document) (stack : List Address) (current : Address) :
    (stack ++ [current]).reverse.flatMap document.subtreeOf =
      current ::
        (stack ++ (document.childrenOf current).reverse).reverse.flatMap document.subtreeOf := by
  rw [List.reverse_concat, List.flatMap_cons, Document.subtreeOf, List.reverse_append,
    List.reverse_reverse, List.flatMap_append, Document.descendantsOf_eq_flatMap]
  rfl

/-- The walk down visits the subtrees of the nodes on the stack one after the other, from the top
on, with any bound that is not below the number of nodes in them. -/
theorem walkDown_eq {limit : Nat} {stack : List Address}
    (enough : (stack.reverse.flatMap document.subtreeOf).length ≤ limit) :
    walkDown document limit stack = stack.reverse.flatMap document.subtreeOf := by
  induction limit generalizing stack with
  | zero =>
      have nothing := List.eq_nil_of_length_eq_zero (Nat.le_zero.mp enough)
      rw [walkDown, nothing]
  | succ limit ih =>
      cases stack using List.reverseRecOn with
      | nil => rfl
      | append_singleton stack current =>
          rw [subtrees_concat, List.length_cons] at enough
          rw [walkDown_concat, subtrees_concat, ih (Nat.le_of_succ_le_succ enough)]

/-- The nodes below a node are collected in pre-order. -/
theorem nodesBelow_eq (document : Document) (node : Address) :
    nodesBelow document node = document.descendantsOf node := by
  have whole : (document.childrenOf node).reverse.reverse.flatMap document.subtreeOf =
      document.descendantsOf node := by
    rw [List.reverse_reverse, ← Document.descendantsOf_eq_flatMap]
  rw [nodesBelow, walkDown_eq, whole]
  rw [whole, Document.length_descendantsOf]

theorem mem_nodesBelow (held : document.Holds node) :
    other ∈ nodesBelow document node ↔ Relation.TransGen document.IsChild node other := by
  rw [nodesBelow_eq, Document.mem_descendantsOf held]

theorem nodesAbove_nil : nodesAbove [] = [] :=
  rfl

/-- One step of the walk up. -/
theorem nodesAbove_concat (above : Address) (place : Place) :
    nodesAbove (above ++ [place]) = above :: nodesAbove above := by
  rw [nodesAbove, parentOf_concat, List.length_append]
  rfl

/-- Going up again and again leads to all that is above, and to nothing else. -/
theorem mem_nodesAbove (held : document.Holds node) :
    other ∈ nodesAbove node ↔
      Relation.TransGen (fun lower upper => document.IsParent upper lower) node other := by
  induction node using List.reverseRecOn with
  | nil =>
      rw [Document.transGen_isParent_iff held, nodesAbove_nil]
      refine ⟨fun member => absurd member List.not_mem_nil, ?_⟩
      rintro ⟨way, present, same⟩
      exact absurd (List.append_eq_nil_iff.mp same.symm).2 present
  | append_singleton above place ih =>
      have parent (upper : Address) :
          document.IsParent upper (above ++ [place]) ↔ upper = above := by
        rw [← mem_parentOf held, parentOf_concat, Option.mem_some_iff, eq_comm]
      rw [nodesAbove_concat, List.mem_cons, ih held.of_append,
        ← Relation.reflTransGen_iff_eq_or_transGen]
      constructor
      · intro ascends
        exact .head' ((parent above).mpr rfl) ascends
      · intro ascends
        obtain ⟨upper, first, ascends⟩ := Relation.TransGen.head'_iff.mp ascends
        exact (parent upper).mp first ▸ ascends

end Walks

section Order

variable (document : Document) (node : Address)

theorem ascending_childrenOf : Address.Ascending (document.childrenOf node) :=
  Address.ascending_map_range node Place.child (fun _ _ before => decide_eq_true before) _

theorem ascending_attributesOf : Address.Ascending (document.attributesOf node) :=
  Address.ascending_map_range node Place.attr (fun _ _ before => decide_eq_true before) _

theorem ascending_nodesBelow : Address.Ascending (nodesBelow document node) := by
  rw [nodesBelow_eq]
  exact document.ascending_descendantsOf node

/-- What is above comes before the node. -/
theorem precedes_of_mem_nodesAbove {above : Address} (member : above ∈ nodesAbove node) :
    above.precedes node = true := by
  induction node using List.reverseRecOn with
  | nil => exact absurd member List.not_mem_nil
  | append_singleton parent place ih =>
      have below := Address.precedes_below parent (List.cons_ne_nil place [])
      rw [nodesAbove_concat, List.mem_cons] at member
      rcases member with rfl | member
      · exact below
      · exact Address.precedes_trans (ih member) below

/-- The nearer of two comes behind the farther, which is above it. -/
theorem descending_nodesAbove :
    (nodesAbove node).Pairwise fun nearer farther => farther.precedes nearer = true := by
  induction node using List.reverseRecOn with
  | nil => exact .nil
  | append_singleton parent place ih =>
      rw [nodesAbove_concat]
      exact List.pairwise_cons.mpr ⟨fun above => precedes_of_mem_nodesAbove parent, ih⟩

end Order

section Siblings

variable {document : Document} {node other above : Address} {same : Address → Address → Bool}

/-- The test tells a node from all other items of the document. -/
def Discerns (same : Address → Address → Bool) (document : Document) (node : Address) : Prop :=
  ∀ other, document.Holds other → (same other node = true ↔ other = node)

/-- Equal addresses are one place, so that the scans may compare addresses. -/
theorem discerns_eq (document : Document) (node : Address) :
    Discerns (fun first second => decide (first = second)) document node :=
  fun _ _ => decide_eq_true_iff

/-- Nodes that are numbered in pre-order are told apart by their keys. -/
theorem discerns_sortKey {number : Address → Nat} (preorder : document.IsPreorder number)
    (held : document.Holds node) :
    Discerns (fun first second =>
      decide (Document.sortKey number first = Document.sortKey number second)) document node :=
  fun _ there => decide_eq_true_iff.trans (preorder.sortKey_eq_iff there held)

/-- Only children have siblings, and these are the children of their parent. -/
theorem siblingParent_of_isChild (child : document.IsChild above node) :
    siblingParent document node = some above := by
  obtain ⟨_, index, _, _, rfl⟩ := Document.isChild_iff.mp child
  rw [siblingParent, if_neg child.2, parentOf_concat]

/-- The scans stop at the node, so that they cut the children of its parent there. -/
theorem siblings_eq (discerns : Discerns same document node) (child : document.IsChild above node)
    {before behind : List Address}
    (children : document.childrenOf above = before ++ node :: behind) :
    precedingSiblings same document node = before.reverse ∧
      followingSiblings same document node = behind := by
  have apart := (ascending_childrenOf document above).nodup
  rw [children, List.nodup_append] at apart
  have inside : ∀ other ∈ before, (!same other node) = true := by
    intro other member
    have listed : other ∈ document.childrenOf above := by
      rw [children]
      exact List.mem_append_left _ member
    rw [Bool.not_eq_true', Bool.eq_false_iff, Ne,
      discerns other (mem_childrenOf.mp listed).1.holds]
    exact apart.2.2 other member node List.mem_cons_self
  have stop : same node node = true := (discerns node child.1.holds).mpr rfl
  rw [precedingSiblings, followingSiblings, siblingParent_of_isChild child]
  dsimp only
  rw [children]
  constructor
  · rw [List.takeWhile_append_of_pos inside, List.takeWhile_cons, stop]
    exact congrArg List.reverse (List.append_nil before)
  · rw [List.dropWhile_append_of_pos inside, List.dropWhile_cons, stop]
    rfl

/-- The children of an item are the siblings before one of them, that one, and those behind it. -/
theorem childrenOf_eq (discerns : Discerns same document node)
    (child : document.IsChild above node) :
    (precedingSiblings same document node).reverse ++ node :: followingSiblings same document node =
      document.childrenOf above := by
  obtain ⟨before, behind, children⟩ := List.append_of_mem (mem_childrenOf.mpr child)
  obtain ⟨preceding, following⟩ := siblings_eq discerns child children
  rw [preceding, following, List.reverse_reverse, children]

/-- What is not a child has no siblings. -/
theorem siblings_eq_nil (same : Address → Address → Bool) (held : document.Holds node)
    (none : ∀ above, ¬document.IsChild above node) :
    precedingSiblings same document node = [] ∧ followingSiblings same document node = [] := by
  have alone : siblingParent document node = Option.none := by
    cases node using List.reverseRecOn with
    | nil => rfl
    | append_singleton above place =>
        refine if_pos (Classical.not_not.mp fun other => none above ⟨held.isParent, other⟩)
  rw [precedingSiblings, followingSiblings, alone]
  exact ⟨rfl, rfl⟩

/-- Either the node is a child, and the scans cut the children of its parent there, or it has no
siblings. -/
theorem siblings_cases (held : document.Holds node) (discerns : Discerns same document node) :
    (∃ above before behind, document.IsChild above node ∧
      document.childrenOf above = before ++ node :: behind ∧
        precedingSiblings same document node = before.reverse ∧
          followingSiblings same document node = behind) ∨
    (∀ above, ¬document.IsChild above node) ∧ precedingSiblings same document node = [] ∧
      followingSiblings same document node = [] := by
  by_cases child : ∃ above, document.IsChild above node
  · obtain ⟨above, child⟩ := child
    obtain ⟨before, behind, children⟩ := List.append_of_mem (mem_childrenOf.mpr child)
    exact .inl ⟨above, before, behind, child, children, siblings_eq discerns child children⟩
  · have none : ∀ above, ¬document.IsChild above node := fun above here => child ⟨above, here⟩
    exact .inr ⟨none, siblings_eq_nil same held none⟩

/-- In a list in order, what stands behind an address are the members that it comes before. -/
theorem mem_behind_iff {before behind : List Address}
    (ascending : Address.Ascending (before ++ node :: behind)) (other : Address) :
    (other ∈ behind ↔ other ∈ before ++ node :: behind ∧ node.precedes other = true) ∧
      (other ∈ before ↔ other ∈ before ++ node :: behind ∧ other.precedes node = true) := by
  obtain ⟨_, onward, across⟩ := List.pairwise_append.mp ascending
  obtain ⟨later, _⟩ := List.pairwise_cons.mp onward
  have asymmetric {first second : Address} (forwards : first.precedes second = true)
      (backwards : second.precedes first = true) : False := by
    have circular := Address.precedes_trans forwards backwards
    rw [Address.precedes_irrefl] at circular
    exact Bool.false_ne_true circular
  constructor
  · constructor
    · intro member
      exact ⟨List.mem_append_right _ (List.mem_cons_of_mem _ member), later other member⟩
    · rintro ⟨member, comes⟩
      rcases List.mem_append.mp member with member | member
      · exact (asymmetric comes (across other member node List.mem_cons_self)).elim
      · rcases List.mem_cons.mp member with rfl | member
        · exact (asymmetric comes comes).elim
        · exact member
  · constructor
    · intro member
      exact ⟨List.mem_append_left _ member, across other member node List.mem_cons_self⟩
    · rintro ⟨member, comes⟩
      rcases List.mem_append.mp member with member | member
      · exact member
      · rcases List.mem_cons.mp member with rfl | member
        · exact (asymmetric comes comes).elim
        · exact (asymmetric comes (later other member)).elim

/-- The scans stop at the node, where the children before it end and those behind it begin. -/
theorem mem_siblings (held : document.Holds node) (discerns : Discerns same document node) :
    (other ∈ followingSiblings same document node ↔
      (∃ above, document.IsChild above node ∧ document.IsChild above other) ∧
        node.precedes other = true) ∧
    (other ∈ precedingSiblings same document node ↔
      (∃ above, document.IsChild above node ∧ document.IsChild above other) ∧
        other.precedes node = true) := by
  rcases siblings_cases held discerns with
    ⟨above, before, behind, child, children, preceding, following⟩ | ⟨none, preceding, following⟩
  · have ascending := ascending_childrenOf document above
    rw [children] at ascending
    have members := mem_behind_iff ascending other
    rw [← children, mem_childrenOf] at members
    have only : (∃ above, document.IsChild above node ∧ document.IsChild above other) ↔
        document.IsChild above other := by
      constructor
      · rintro ⟨second, secondChild, otherChild⟩
        obtain ⟨_, _, _, _, first⟩ := Document.isChild_iff.mp child
        obtain ⟨_, _, _, _, again⟩ := Document.isChild_iff.mp secondChild
        exact (List.append_inj_left' (again.symm.trans first) rfl) ▸ otherChild
      · exact fun otherChild => ⟨above, child, otherChild⟩
    rwa [preceding, following, List.mem_reverse, only]
  · have apart : ¬∃ above, document.IsChild above node ∧ document.IsChild above other :=
      fun ⟨above, here, _⟩ => none above here
    simp only [preceding, following, List.not_mem_nil, apart, false_and, and_self]

/-- Siblings before a node are listed backwards, and those behind it forwards. -/
theorem siblings_inOrder (held : document.Holds node) (discerns : Discerns same document node) :
    (precedingSiblings same document node).Pairwise (fun nearer farther =>
      farther.precedes nearer = true) ∧
    Address.Ascending (followingSiblings same document node) := by
  rcases siblings_cases held discerns with
    ⟨above, before, behind, _, children, preceding, following⟩ | ⟨_, preceding, following⟩
  · have ascending := ascending_childrenOf document above
    rw [children] at ascending
    obtain ⟨first, onward, _⟩ := List.pairwise_append.mp ascending
    rw [preceding, following]
    exact ⟨List.pairwise_reverse.mpr first, (List.pairwise_cons.mp onward).2⟩
  · rw [preceding, following]
    exact ⟨.nil, .nil⟩

/-- All tests that tell a node from the others make the scans stop at the same place. -/
theorem siblings_congr {test : Address → Address → Bool} (held : document.Holds node)
    (discerns : Discerns same document node) (tells : Discerns test document node) :
    precedingSiblings same document node = precedingSiblings test document node ∧
      followingSiblings same document node = followingSiblings test document node := by
  rcases siblings_cases held discerns with
    ⟨above, before, behind, child, children, preceding, following⟩ | ⟨none, preceding, following⟩
  · obtain ⟨precedes, follows⟩ := siblings_eq tells child children
    exact ⟨preceding.trans precedes.symm, following.trans follows.symm⟩
  · obtain ⟨precedes, follows⟩ := siblings_eq_nil test held none
    exact ⟨preceding.trans precedes.symm, following.trans follows.symm⟩

end Siblings

namespace Axis

variable {document : Document} {node other : Address}

/-- The order of a list matters for its members only. -/
theorem IsInOrder.imp_of_mem {axis : Axis} {before orders : Address → Address → Prop}
    {nodes : List Address} (inOrder : axis.IsInOrder before nodes)
    (implies : ∀ first ∈ nodes, ∀ second ∈ nodes, before first second → orders first second) :
    axis.IsInOrder orders nodes := by
  refine List.Pairwise.imp_of_mem (fun nearer farther related => ?_) inOrder
  by_cases backwards : axis.isReverse
  · simp only [backwards, ↓reduceIte] at related ⊢
    exact implies _ farther _ nearer related
  · simp only [backwards, Bool.false_eq_true, ↓reduceIte] at related ⊢
    exact implies _ nearer _ farther related

theorem mem_nodes (held : document.Holds node) (axis : Axis) :
    other ∈ axis.nodes document node ↔ axis.Leads document node other := by
  cases axis with
  | child => exact mem_childrenOf
  | attr => exact mem_attributesOf
  | self => exact List.mem_singleton
  | parent => exact Option.mem_toList.trans (mem_parentOf held)
  | descendant => exact mem_nodesBelow held
  | descendantOrSelf => exact List.mem_cons.trans (or_congr_right (mem_nodesBelow held))
  | ancestor => exact mem_nodesAbove held
  | ancestorOrSelf => exact List.mem_cons.trans (or_congr_right (mem_nodesAbove held))
  | followingSibling => exact (mem_siblings held (discerns_eq document node)).1
  | precedingSibling => exact (mem_siblings held (discerns_eq document node)).2

/-- No axis leads out of the document. -/
theorem Leads.holds (held : document.Holds node) {axis : Axis}
    (leads : axis.Leads document node other) : document.Holds other := by
  have below (descends : Relation.TransGen document.IsChild node other) : document.Holds other := by
    obtain ⟨_, _, _, _, there⟩ := Document.transGen_isChild_iff.mp descends
    exact there
  have above (ascends : Relation.TransGen (fun lower upper => document.IsParent upper lower)
      node other) : document.Holds other := by
    obtain ⟨way, _, rfl⟩ := (Document.transGen_isParent_iff held).mp ascends
    exact held.of_append
  cases axis with
  | child => exact leads.1.holds
  | attr => exact leads.1.holds
  | self => exact leads ▸ held
  | parent => exact above (.single leads)
  | descendant => exact below leads
  | descendantOrSelf => exact leads.elim (fun same => same ▸ held) below
  | ancestor => exact above leads
  | ancestorOrSelf => exact leads.elim (fun same => same ▸ held) above
  | followingSibling =>
      obtain ⟨⟨_, _, child⟩, _⟩ := leads
      exact child.1.holds
  | precedingSibling =>
      obtain ⟨⟨_, _, child⟩, _⟩ := leads
      exact child.1.holds

theorem nodes_isInOrder (held : document.Holds node) (axis : Axis) :
    axis.IsInOrder (fun first second => first.precedes second = true)
      (axis.nodes document node) := by
  cases axis with
  | child => exact ascending_childrenOf document node
  | attr => exact ascending_attributesOf document node
  | self => exact List.pairwise_singleton _ _
  | parent =>
      rw [nodes, nodesBy]
      cases parentOf node with
      | none => exact .nil
      | some above => exact List.pairwise_singleton _ _
  | descendant => exact ascending_nodesBelow document node
  | descendantOrSelf =>
      refine List.pairwise_cons.mpr ⟨fun below member => ?_, ascending_nodesBelow document node⟩
      have descends := (mem_nodesBelow held).mp member
      obtain ⟨way, present, _, rfl, _⟩ := Document.transGen_isChild_iff.mp descends
      exact Address.precedes_below node present
  | ancestor => exact descending_nodesAbove node
  | ancestorOrSelf =>
      refine List.pairwise_cons.mpr ⟨fun above => ?_, descending_nodesAbove node⟩
      exact precedes_of_mem_nodesAbove node
  | followingSibling => exact (siblings_inOrder held (discerns_eq document node)).2
  | precedingSibling => exact (siblings_inOrder held (discerns_eq document node)).1

/-- The nodes on an axis do not depend on how a node is told from the others. -/
theorem nodesBy_eq {same : Address → Address → Bool} (held : document.Holds node)
    (discerns : Discerns same document node) (axis : Axis) :
    axis.nodesBy same document node = axis.nodes document node := by
  have siblings := siblings_congr held discerns (discerns_eq document node)
  cases axis with
  | followingSibling => exact siblings.2
  | precedingSibling => exact siblings.1
  | _ => rfl

/-- Every axis lists exactly the nodes that it leads to, each once, in proximity order, both by
address and by the keys of nodes that are numbered in pre-order. The children of a parent are the
siblings before a node, from the farthest, the node and the siblings behind it; attributes have no
siblings. -/
theorem nodes_exact (held : document.Holds node) (axis : Axis) :
    (∀ other, other ∈ axis.nodes document node ↔ axis.Leads document node other) ∧
      (axis.nodes document node).Nodup ∧
      axis.IsInOrder (fun first second => first.precedes second = true)
        (axis.nodes document node) ∧
      (∀ number, document.IsPreorder number →
        axis.IsInOrder (fun first second => Prod.Lex (· < ·) (· < ·)
          (Document.sortKey number first) (Document.sortKey number second))
          (axis.nodes document node)) ∧
      (∀ above, document.IsChild above node →
        (precedingSibling.nodes document node).reverse ++ [node] ++
          followingSibling.nodes document node = child.nodes document above) ∧
      (∀ owner, document.IsAttribute owner node →
        precedingSibling.nodes document node = [] ∧ followingSibling.nodes document node = []) ∧
      (∀ number, document.IsPreorder number →
        axis.nodesBy (fun first second =>
          decide (Document.sortKey number first = Document.sortKey number second)) document node =
            axis.nodes document node) := by
  have inOrder := nodes_isInOrder held axis
  refine ⟨fun other => mem_nodes held axis, ?_, inOrder, ?_, ?_, ?_, ?_⟩
  · refine List.Pairwise.imp ?_ inOrder
    rintro first _ before rfl
    simp only [Address.precedes_irrefl, Bool.false_eq_true, ite_self] at before
  · intro number preorder
    refine inOrder.imp_of_mem fun first firstMember second secondMember before => ?_
    have firstHeld := ((mem_nodes held axis).mp firstMember).holds held
    have secondHeld := ((mem_nodes held axis).mp secondMember).holds held
    exact preorder.sortKey_lt firstHeld secondHeld before
  · intro above child
    rw [List.append_assoc]
    exact childrenOf_eq (discerns_eq document node) child
  · intro owner isAttr
    exact siblings_eq_nil (fun first second => decide (first = second)) held
      fun above child => child.2 isAttr.2
  · intro number preorder
    exact nodesBy_eq held (discerns_sortKey preorder held) axis

/-- The siblings before the last child of an element with an attribute, a text among them; and those
of the attribute. -/
theorem nodes_exact_siblings :
    let document : Document :=
      ⟨[.element "a" [⟨"id", "1"⟩] [.element "b" [] [] "", .text "t" "", .element "c" [] [] ""] ""],
        ""⟩
    let last : Address := [.child 0, .child 2]
    let entry : Address := [.child 0, .attr 0]
    (document.Holds last ∧ document.IsPreorder document.position ∧
      (∀ other, other ∈ precedingSibling.nodes document last ↔
        precedingSibling.Leads document last other) ∧
      precedingSibling.IsInOrder (fun first second => Prod.Lex (· < ·) (· < ·)
        (Document.sortKey document.position first) (Document.sortKey document.position second))
        (precedingSibling.nodes document last) ∧
      document.IsChild [.child 0] last ∧
      (precedingSibling.nodes document last).reverse ++ [last] ++
        followingSibling.nodes document last = child.nodes document [.child 0] ∧
      precedingSibling.nodesBy (fun first second =>
        decide (Document.sortKey document.position first =
          Document.sortKey document.position second)) document last =
            precedingSibling.nodes document last) ∧
    document.Holds entry ∧ document.IsAttribute [.child 0] entry ∧
      precedingSibling.nodes document entry = [] ∧
      followingSibling.nodes document entry = [] := by
  intro document last entry
  have held : document.Holds last := ⟨_, rfl⟩
  have isChild : document.IsChild [.child 0] last :=
    Document.isChild_iff.mpr ⟨_, 2, rfl, by decide, rfl⟩
  have entryHeld : document.Holds entry := ⟨_, rfl⟩
  have isAttr : document.IsAttribute [.child 0] entry :=
    Document.isAttribute_iff.mpr ⟨_, 0, rfl, by decide, rfl⟩
  obtain ⟨members, _, _, keys, split, _, told⟩ := nodes_exact held precedingSibling
  obtain ⟨_, _, _, _, _, alone, _⟩ := nodes_exact entryHeld precedingSibling
  have preorder := document.isPreorder_position
  exact ⟨⟨held, preorder, members, keys _ preorder, isChild, split _ isChild, told _ preorder⟩,
    entryHeld, isAttr, alone _ isAttr⟩

end Axis

end XPath

end XmlRecords
