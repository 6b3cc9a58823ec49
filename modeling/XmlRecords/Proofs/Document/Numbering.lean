import XmlRecords.Proofs.Document.Tree

/-! # Document order by numbers

The items of a document can also be put in order by keys: the nodes, attributes apart, are numbered
in the order in which they begin, and an attribute has the number of its element and its own place
behind it. These keys give document order on addresses (`Document.IsPreorder.sortKey_lt`).
-/

namespace XmlRecords

namespace Document

variable (document : Document)

/-- The numbers grow from a node to its children, and from a node and all below it to the next
siblings of the node. -/
structure IsPreorder (number : Address → Nat) : Prop where
  child_lt : ∀ {parent node : Address}, document.IsChild parent node → number parent < number node
  sibling_lt : ∀ {parent below : Address} {left right : Nat}, left < right →
    document.IsChild parent (parent ++ [.child right]) →
    Relation.ReflTransGen document.IsChild (parent ++ [.child left]) below →
      number below < number (parent ++ [.child right])

/-- The key of an address: the number of a node, with zero behind it; for an attribute the number of
its element, with the place of the attribute, counted from one. -/
def sortKey (number : Address → Nat) (address : Address) : Nat × Nat :=
  match address.getLast? with
  | some (.attr index) => (number address.dropLast, index + 1)
  | _ => (number address, 0)

/-- The place of an address in the list of all nodes, attributes apart. -/
def position (address : Address) : Nat :=
  ([] :: document.descendantsOf []).idxOf address

variable {document}

section Ways

/-- Only the last step of a way can be that to an attribute. -/
theorem Holds.isChild_of_mem {address way : Address} {place : Place}
    (held : document.Holds (address ++ (way ++ [place]))) : ∀ step ∈ way, step.isChild := by
  intro step member
  obtain ⟨before, behind, rfl⟩ := List.append_of_mem member
  cases step with
  | child index => rfl
  | attr index =>
      have whole : address ++ (before ++ .attr index :: behind ++ [place]) =
          (address ++ before) ++ .attr index :: (behind ++ [place]) := by
        simp only [List.append_assoc, List.cons_append]
      rw [whole] at held
      exact absurd held.eq_nil_of_attr (List.concat_ne_nil _ _)

/-- Each child on the way to an address is in the document too, so that the way is taken step by
step. -/
theorem Holds.reflTransGen {address way : Address} (held : document.Holds (address ++ way))
    (through : ∀ step ∈ way, step.isChild) :
    Relation.ReflTransGen document.IsChild address (address ++ way) := by
  by_cases here : way = []
  · subst here
    rw [List.append_nil]
  · exact (transGen_isChild_iff.mpr ⟨way, here, through, rfl, held⟩).to_reflTransGen

end Ways

section Keys

variable {number : Address → Nat}

/-- An attribute has the number of its element and a rank behind it. -/
theorem sortKey_attr (owner : Address) (index : Nat) :
    sortKey number (owner ++ [.attr index]) = (number owner, index + 1) := by
  rw [sortKey, List.getLast?_concat, List.dropLast_concat]

/-- A child has a number of its own. -/
theorem sortKey_child (parent : Address) (index : Nat) :
    sortKey number (parent ++ [.child index]) = (number (parent ++ [.child index]), 0) := by
  rw [sortKey, List.getLast?_concat]

/-- Below a child, a key begins with the number of the child or of a descendant. -/
theorem exists_sortKey_eq (number : Address → Nat) {parent rest : Address} {index : Nat}
    (held : document.Holds (parent ++ .child index :: rest)) :
    ∃ owner last, Relation.ReflTransGen document.IsChild (parent ++ [.child index]) owner ∧
      sortKey number (parent ++ .child index :: rest) = (number owner, last) := by
  have whole : parent ++ .child index :: rest = (parent ++ [.child index]) ++ rest := by
    rw [List.append_assoc]
    rfl
  rw [whole] at held ⊢
  cases rest using List.reverseRecOn with
  | nil =>
      rw [List.append_nil, sortKey_child]
      exact ⟨_, _, .refl, rfl⟩
  | append_singleton rest place =>
      have through := held.isChild_of_mem
      rw [← List.append_assoc] at held ⊢
      cases place with
      | attr place =>
          rw [sortKey_attr]
          exact ⟨_, _, held.of_append.reflTransGen through, rfl⟩
      | child place =>
          rw [sortKey_child]
          exact ⟨_, _, (held.of_append.reflTransGen through).tail held.isChild, rfl⟩

end Keys

namespace IsPreorder

variable {number : Address → Nat}

/-- Numbers grow on the way down, by induction along it. -/
theorem lt_of_transGen (preorder : document.IsPreorder number) {node below : Address}
    (descends : Relation.TransGen document.IsChild node below) : number node < number below := by
  induction descends with
  | single child => exact preorder.child_lt child
  | tail _ child ih => exact ih.trans (preorder.child_lt child)

theorem le_of_reflTransGen (preorder : document.IsPreorder number) {node below : Address}
    (descends : Relation.ReflTransGen document.IsChild node below) :
    number node ≤ number below := by
  rcases Relation.reflTransGen_iff_eq_or_transGen.mp descends with rfl | descends
  · exact Nat.le_refl _
  · exact (preorder.lt_of_transGen descends).le

/-- What is below an address comes behind it: an attribute by its rank, and all else by its number.
-/
theorem sortKey_lt_below (preorder : document.IsPreorder number) {address way : Address}
    (present : way ≠ []) (held : document.Holds (address ++ way)) :
    Prod.Lex (· < ·) (· < ·) (sortKey number address) (sortKey number (address ++ way)) := by
  have here : sortKey number address = (number address, 0) := by
    cases address using List.reverseRecOn with
    | nil => rfl
    | append_singleton above place =>
        cases place with
        | attr index =>
            rw [List.append_assoc] at held
            exact absurd held.eq_nil_of_attr present
        | child index => exact sortKey_child above index
  obtain ⟨way, place, rfl⟩ := List.eq_nil_or_concat way |>.resolve_left present
  rw [List.concat_eq_append] at held ⊢
  have through := held.isChild_of_mem
  rw [← List.append_assoc] at held ⊢
  have above := preorder.le_of_reflTransGen (held.of_append.reflTransGen through)
  rw [here]
  cases place with
  | attr index =>
      rw [sortKey_attr]
      rcases above.eq_or_lt with same | above
      · rw [same]
        exact .right _ (Nat.succ_pos index)
      · exact .left _ _ above
  | child index =>
      rw [sortKey_child]
      exact .left _ _ (above.trans_lt (preorder.child_lt held.isChild))

/-- Where two addresses part, the places at which they do decide. All that is below an earlier child
has smaller numbers than a later one. -/
theorem sortKey_lt_parting (preorder : document.IsPreorder number) {above lefts rights : Address}
    {left right : Place} (parted : left.precedes right = true)
    (leftHeld : document.Holds (above ++ left :: lefts))
    (rightHeld : document.Holds (above ++ right :: rights)) :
    Prod.Lex (· < ·) (· < ·) (sortKey number (above ++ left :: lefts))
      (sortKey number (above ++ right :: rights)) := by
  cases left with
  | attr left =>
      obtain rfl := leftHeld.eq_nil_of_attr
      rw [sortKey_attr]
      cases right with
      | attr right =>
          obtain rfl := rightHeld.eq_nil_of_attr
          rw [sortKey_attr]
          exact .right _ (Nat.succ_lt_succ (of_decide_eq_true parted))
      | child right =>
          obtain ⟨owner, last, descends, same⟩ := exists_sortKey_eq number rightHeld
          have held : document.Holds ((above ++ [.child right]) ++ rights) := by
            rwa [List.append_assoc]
          have inside := preorder.child_lt held.of_append.isChild
          rw [same]
          exact .left _ _ (inside.trans_le (preorder.le_of_reflTransGen descends))
  | child left =>
      cases right with
      | attr right => cases parted
      | child right =>
          obtain ⟨leftOwner, _, leftDescends, leftSame⟩ :=
            exists_sortKey_eq number leftHeld
          obtain ⟨rightOwner, _, rightDescends, rightSame⟩ :=
            exists_sortKey_eq number rightHeld
          have held : document.Holds ((above ++ [.child right]) ++ rights) := by
            rwa [List.append_assoc]
          have before := preorder.sibling_lt (of_decide_eq_true parted) held.of_append.isChild
            leftDescends
          rw [leftSame, rightSame]
          exact .left _ _ (before.trans_le (preorder.le_of_reflTransGen rightDescends))

/-- Items in document order have keys in order. -/
theorem sortKey_lt (preorder : document.IsPreorder number) {first second : Address}
    (firstHeld : document.Holds first) (secondHeld : document.Holds second)
    (before : first.precedes second = true) :
    Prod.Lex (· < ·) (· < ·) (sortKey number first) (sortKey number second) := by
  rcases Address.precedes_cases before with ⟨way, present, rfl⟩ |
    ⟨above, left, right, lefts, rights, rfl, rfl, parted⟩
  · exact preorder.sortKey_lt_below present secondHeld
  · exact preorder.sortKey_lt_parting parted firstHeld secondHeld

/-- Items are told apart by their keys. -/
theorem sortKey_eq_iff (preorder : document.IsPreorder number) {first second : Address}
    (firstHeld : document.Holds first) (secondHeld : document.Holds second) :
    sortKey number first = sortKey number second ↔ first = second := by
  refine ⟨fun same => ?_, congrArg (sortKey number)⟩
  by_contra different
  rcases Address.precedes_or_precedes different with before | before
  · have less := preorder.sortKey_lt firstHeld secondHeld before
    rw [same] at less
    exact irrefl _ less
  · have less := preorder.sortKey_lt secondHeld firstHeld before
    rw [same] at less
    exact irrefl _ less

end IsPreorder

section Position

variable (document)

theorem ascending_nodes : Address.Ascending ([] :: document.descendantsOf []) := by
  refine List.pairwise_cons.mpr ⟨fun node below => ?_, document.ascending_descendantsOf []⟩
  have descends := (mem_descendantsOf ⟨.root document, rfl⟩).mp below
  obtain ⟨way, present, _, rfl, _⟩ := transGen_isChild_iff.mp descends
  exact Address.precedes_below [] present

/-- The root and all that it contains. -/
theorem mem_nodes {node : Address} (descends : Relation.ReflTransGen document.IsChild [] node) :
    node ∈ [] :: document.descendantsOf [] := by
  rcases Relation.reflTransGen_iff_eq_or_transGen.mp descends with rfl | descends
  · exact List.mem_cons_self
  · exact List.mem_cons_of_mem _ ((mem_descendantsOf ⟨.root document, rfl⟩).mpr descends)

/-- Every document has such numbers: the places of its nodes in their list. -/
theorem isPreorder_position : document.IsPreorder document.position := by
  have descends {parent : Address} {index : Nat}
      (child : document.IsChild parent (parent ++ [.child index])) :
      Relation.ReflTransGen document.IsChild [] parent := by
    have held : document.Holds ([] ++ (parent ++ [.child index])) := child.1.holds
    have above : document.Holds ([] ++ parent) := child.1.holds.of_append
    exact above.reflTransGen held.isChild_of_mem
  constructor
  · intro parent node child
    obtain ⟨item, index, here, bound, rfl⟩ := isChild_iff.mp child
    exact document.ascending_nodes.idxOf_lt (document.mem_nodes (descends child))
      (document.mem_nodes ((descends child).tail child))
      (Address.precedes_below parent (List.cons_ne_nil _ _))
  · intro parent below left right before child within
    have leftChild : document.IsChild parent (parent ++ [.child left]) := by
      obtain ⟨item, index, here, bound, same⟩ := isChild_iff.mp child
      cases List.append_cancel_left same
      exact isChild_iff.mpr ⟨item, left, here, before.trans bound, rfl⟩
    have order : Address.precedes below (parent ++ [.child right]) = true := by
      have parted : (Place.child left).precedes (.child right) = true := decide_eq_true before
      rcases Relation.reflTransGen_iff_eq_or_transGen.mp within with rfl | within
      · exact Address.precedes_of_parting parent parted [] []
      · obtain ⟨way, _, _, rfl, _⟩ := transGen_isChild_iff.mp within
        rw [List.append_assoc]
        exact Address.precedes_of_parting parent parted way []
    exact document.ascending_nodes.idxOf_lt
      (document.mem_nodes (((descends child).tail leftChild).trans within))
      (document.mem_nodes ((descends child).tail child)) order

end Position

end Document

end XmlRecords
