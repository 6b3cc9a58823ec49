import Mathlib.Data.List.Induction
import Mathlib.Logic.Relation
import XmlRecords.Proofs.Document.Order

/-! # The tree of a document

Which addresses a document has items at, and which of them are parents, children and attributes of
each other, said by the items that stand there. The closures of these relations are described by the
ways between the addresses: a descendant is reached by a way through children, and an ancestor is at
an address that the way from the root passes. The list of all below an item
(`Document.descendantsOf`) has the descendants in document order.
-/

namespace XmlRecords

namespace Place

/-- The place is that of a child. -/
def isChild : Place → Bool
  | attr _ => false
  | child _ => true

theorem isChild_iff {place : Place} : place.isChild = true ↔ ∃ index, place = .child index := by
  cases place <;> simp [isChild]

end Place

theorem Node.kind_ne_attr (node : Node) : node.kind ≠ .attr := by
  cases node <;> exact nofun

namespace Document

variable (document : Document)

/-- There is an item at the address. -/
def Holds (address : Address) : Prop :=
  ∃ item, document.itemAt? address = some item

/-- The second address is one step below the first one: that of one of its attributes or
children. -/
def IsParent (parent node : Address) : Prop :=
  ∃ item place below, document.itemAt? parent = some item ∧ item.at? place = some below ∧
    node = parent ++ [place]

/-- A child is one step below its parent, and is not an attribute. -/
def IsChild (parent node : Address) : Prop :=
  document.IsParent parent node ∧ document.kindAt? node ≠ some .attr

def IsAttribute (parent node : Address) : Prop :=
  document.IsParent parent node ∧ document.kindAt? node = some .attr

variable {document}

section Items

/-- An address is followed in two parts. -/
theorem itemAt?_append (first second : Address) :
    document.itemAt? (first ++ second) = (document.itemAt? first).bind (Item.descend? second) := by
  have descend (item : Item) : Item.descend? (first ++ second) item =
      (Item.descend? first item).bind (Item.descend? second) := by
    induction first generalizing item with
    | nil => rfl
    | cons place places ih =>
        simp only [List.cons_append, Item.descend?]
        cases item.at? place with
        | none => rfl
        | some below => exact ih below
  exact descend _

/-- The last place is looked up in what the address before it leads to. -/
theorem itemAt?_concat (address : Address) (place : Place) :
    document.itemAt? (address ++ [place]) = (document.itemAt? address).bind (Item.at? · place) := by
  rw [itemAt?_append]
  refine Option.bind_congr fun item _ => ?_
  rw [Item.descend?]
  cases item.at? place <;> rfl

/-- What is above something in the document is in it too. -/
theorem Holds.of_append {first second : Address} (held : document.Holds (first ++ second)) :
    document.Holds first := by
  obtain ⟨item, found⟩ := held
  rw [itemAt?_append] at found
  obtain ⟨above, here, _⟩ := Option.bind_eq_some_iff.mp found
  exact ⟨above, here⟩

/-- What a place is added to is its parent. -/
theorem Holds.isParent {address : Address} {place : Place}
    (held : document.Holds (address ++ [place])) :
    document.IsParent address (address ++ [place]) := by
  obtain ⟨item, found⟩ := held
  rw [itemAt?_concat] at found
  obtain ⟨above, here, below⟩ := Option.bind_eq_some_iff.mp found
  exact ⟨above, place, item, here, below, rfl⟩

theorem IsParent.holds {parent node : Address} (below : document.IsParent parent node) :
    document.Holds node := by
  obtain ⟨item, place, found, here, there, rfl⟩ := below
  exact ⟨found, by rw [itemAt?_concat, here]; exact there⟩

/-- An attribute is at the end of its way: nothing is below it. -/
theorem Holds.eq_nil_of_attr {address rest : Address} {index : Nat}
    (held : document.Holds (address ++ .attr index :: rest)) : rest = [] := by
  obtain ⟨item, found⟩ := held
  rw [itemAt?_append] at found
  obtain ⟨above, _, found⟩ := Option.bind_eq_some_iff.mp found
  obtain ⟨entry, there, found⟩ := Option.bind_eq_some_iff.mp found
  obtain ⟨attr, _, rfl⟩ := Option.map_eq_some_iff.mp there
  match rest, found with
  | [], _ => rfl
  | .attr index :: rest, found => cases found
  | .child index :: rest, found => cases found

/-- The children of an item are at its first places, as many as there are. -/
theorem isChild_iff {parent node : Address} :
    document.IsChild parent node ↔
      ∃ item index, document.itemAt? parent = some item ∧ index < item.children.length ∧
        node = parent ++ [.child index] := by
  constructor
  · rintro ⟨⟨item, place, below, here, there, rfl⟩, other⟩
    rw [kindAt?, itemAt?_concat, here, Option.bind_some, there] at other
    cases place with
    | attr index =>
        obtain ⟨attr, _, rfl⟩ := Option.map_eq_some_iff.mp there
        exact absurd rfl other
    | child index =>
        obtain ⟨child, found, rfl⟩ := Option.map_eq_some_iff.mp there
        obtain ⟨bound, _⟩ := List.getElem?_eq_some_iff.mp found
        exact ⟨item, index, here, bound, rfl⟩
  · rintro ⟨item, index, here, bound, rfl⟩
    have there : item.at? (.child index) = some (.node item.children[index]) := by
      rw [Item.at?, List.getElem?_eq_getElem bound, Option.map_some]
    refine ⟨⟨item, .child index, _, here, there, rfl⟩, ?_⟩
    rw [kindAt?, itemAt?_concat, here, Option.bind_some, there]
    exact fun same => Node.kind_ne_attr _ (Option.some.inj same)

/-- So are its attributes. -/
theorem isAttribute_iff {parent node : Address} :
    document.IsAttribute parent node ↔
      ∃ item index, document.itemAt? parent = some item ∧ index < item.attributes.length ∧
        node = parent ++ [.attr index] := by
  constructor
  · rintro ⟨⟨item, place, below, here, there, rfl⟩, isAttr⟩
    rw [kindAt?, itemAt?_concat, here, Option.bind_some, there] at isAttr
    cases place with
    | attr index =>
        obtain ⟨attr, found, rfl⟩ := Option.map_eq_some_iff.mp there
        obtain ⟨bound, _⟩ := List.getElem?_eq_some_iff.mp found
        exact ⟨item, index, here, bound, rfl⟩
    | child index =>
        obtain ⟨child, _, rfl⟩ := Option.map_eq_some_iff.mp there
        exact absurd (Option.some.inj isAttr) child.kind_ne_attr
  · rintro ⟨item, index, here, bound, rfl⟩
    have there : item.at? (.attr index) = some (.attr item.attributes[index]) := by
      rw [Item.at?, List.getElem?_eq_getElem bound, Option.map_some]
    refine ⟨⟨item, .attr index, _, here, there, rfl⟩, ?_⟩
    rw [kindAt?, itemAt?_concat, here, Option.bind_some, there]
    rfl

theorem Holds.isChild {address : Address} {index : Nat}
    (held : document.Holds (address ++ [.child index])) :
    document.IsChild address (address ++ [.child index]) := by
  obtain ⟨item, place, below, here, there, same⟩ := held.isParent
  cases List.append_cancel_left same
  obtain ⟨child, found, _⟩ := Option.map_eq_some_iff.mp there
  obtain ⟨bound, _⟩ := List.getElem?_eq_some_iff.mp found
  exact isChild_iff.mpr ⟨item, index, here, bound, rfl⟩

end Items

section Closures

/-- The descendants of an item are reached from it by the ways through children. -/
theorem transGen_isChild_iff {node other : Address} :
    Relation.TransGen document.IsChild node other ↔
      ∃ way, way ≠ [] ∧ (∀ place ∈ way, place.isChild) ∧ other = node ++ way ∧
        document.Holds other := by
  constructor
  · intro below
    induction below with
    | single child =>
        obtain ⟨item, index, here, bound, rfl⟩ := isChild_iff.mp child
        refine ⟨[.child index], List.cons_ne_nil _ _, ?_, rfl, child.1.holds⟩
        exact List.forall_mem_singleton.mpr rfl
    | tail _ child ih =>
        obtain ⟨way, _, through, rfl, _⟩ := ih
        obtain ⟨item, index, here, bound, rfl⟩ := isChild_iff.mp child
        refine ⟨way ++ [.child index], List.concat_ne_nil _ _, ?_, List.append_assoc _ _ _,
          child.1.holds⟩
        exact List.forall_mem_append.mpr ⟨through, List.forall_mem_singleton.mpr rfl⟩
  · rintro ⟨way, present, through, rfl, held⟩
    induction way using List.reverseRecOn with
    | nil => exact absurd rfl present
    | append_singleton way place ih =>
        obtain ⟨before, last⟩ := List.forall_mem_append.mp through
        obtain ⟨index, rfl⟩ := Place.isChild_iff.mp (last place List.mem_cons_self)
        rw [← List.append_assoc] at held ⊢
        by_cases first : way = []
        · subst first
          rw [List.append_nil] at held ⊢
          exact .single held.isChild
        · exact .tail (ih first before held.of_append) held.isChild

/-- What is above an address is a proper prefix of it. -/
theorem transGen_isParent_iff {node other : Address} (held : document.Holds node) :
    Relation.TransGen (fun lower upper => document.IsParent upper lower) node other ↔
      ∃ way, way ≠ [] ∧ node = other ++ way := by
  constructor
  · intro above
    induction above with
    | single parent =>
        obtain ⟨item, place, below, _, _, same⟩ := parent
        exact ⟨[place], List.cons_ne_nil _ _, same⟩
    | tail _ parent ih =>
        obtain ⟨way, _, passed⟩ := ih
        obtain ⟨item, place, below, _, _, rfl⟩ := parent
        exact ⟨place :: way, List.cons_ne_nil _ _, by rw [passed, List.append_assoc]; rfl⟩
  · rintro ⟨way, present, rfl⟩
    induction way using List.reverseRecOn with
    | nil => exact absurd rfl present
    | append_singleton way place ih =>
        rw [← List.append_assoc] at held ⊢
        by_cases first : way = []
        · subst first
          rw [List.append_nil] at held ⊢
          exact .single held.isParent
        · exact .head held.isParent (ih first held.of_append)

end Closures

end Document

section Descendants

namespace Node

mutual

/-- The ways from a node down to all below it, attributes apart, in document order. -/
def descendants : Node → List Address
  | .element _ _ children _ => descendantsFrom 0 children
  | _ => []

/-- The ways down to all nodes of a list, which begins with the given index, and to all below. -/
def descendantsFrom : Nat → List Node → List Address
  | _, [] => []
  | index, node :: nodes =>
      [.child index] ::
        (node.descendants.map (.child index :: ·) ++ descendantsFrom (index + 1) nodes)

end

end Node

namespace Document

/-- The addresses of all below an item, attributes apart, in document order. -/
def descendantsOf (document : Document) (address : Address) : List Address :=
  let ways := ((document.itemAt? address).map fun item =>
    Node.descendantsFrom 0 item.children).getD []
  ways.map (address ++ ·)

/-- The address of an item with those of all below it, attributes apart, in document order. -/
def subtreeOf (document : Document) (address : Address) : List Address :=
  address :: document.descendantsOf address

end Document

mutual

/-- Each node below is there once, by induction on the tree. -/
theorem Node.length_descendants : (node : Node) → node.descendants.length + 1 = node.size
  | .element _ _ children _ => by
      rw [Node.descendants, Node.size, Node.length_descendantsFrom 0 children]
  | .text _ _ => rfl
  | .comment _ _ => rfl
  | .instruction _ _ _ => rfl

/-- There are as many ways down as there are nodes. -/
theorem Node.length_descendantsFrom : (start : Nat) → (nodes : List Node) →
    (Node.descendantsFrom start nodes).length = Node.sizeOfAll nodes
  | _, [] => rfl
  | start, node :: nodes => by
      have inside := Node.length_descendants node
      have behind := Node.length_descendantsFrom (start + 1) nodes
      rw [Node.descendantsFrom, Node.sizeOfAll, List.length_cons, List.length_append,
        List.length_map]
      omega

end

theorem Node.descendants_eq (node : Node) : node.descendants = descendantsFrom 0 node.children := by
  cases node with
  | element name attributes children markup => rw [descendants, Node.children]
  | _ => rfl

section Subtrees

variable {document : Document} {node : Address}

/-- What is below a child of an item is what is below the node that the child is. -/
theorem Document.descendantsOf_child {item : Item} {index : Nat} {child : Node}
    (here : document.itemAt? node = some item) (found : item.children[index]? = some child) :
    document.descendantsOf (node ++ [.child index]) =
      child.descendants.map fun way => node ++ .child index :: way := by
  have there : document.itemAt? (node ++ [.child index]) = some (.node child) := by
    rw [itemAt?_concat, here, Option.bind_some, Item.at?, found, Option.map_some]
  rw [descendantsOf, there, Node.descendants_eq]
  refine List.map_congr_left fun way _ => ?_
  rw [List.append_assoc]
  rfl

/-- The nodes of a list come in turn, each with what is below it. -/
theorem Node.map_descendantsFrom {start : Nat} {nodes : List Node}
    (below : ∀ index child, nodes[index]? = some child →
      document.descendantsOf (node ++ [.child (start + index)]) =
        child.descendants.map fun way => node ++ .child (start + index) :: way) :
    (descendantsFrom start nodes).map (node ++ ·) =
      ((List.range nodes.length).map fun index => node ++ [.child (start + index)]).flatMap
        document.subtreeOf := by
  induction nodes generalizing start with
  | nil => rfl
  | cons first nodes ih =>
      have here := below 0 first rfl
      have behind := @ih (start + 1) fun index child found => by
        rw [Nat.add_assoc, Nat.add_comm 1]
        exact below (index + 1) child found
      have shifted : ((List.range nodes.length).map fun index =>
          node ++ [Place.child (start + 1 + index)]) =
            ((List.range nodes.length).map Nat.succ).map fun index =>
              node ++ [Place.child (start + index)] := by
        rw [List.map_map]
        refine List.map_congr_left fun index _ => ?_
        rw [Nat.add_assoc, Nat.add_comm 1]
        rfl
      rw [descendantsFrom, List.map_cons, List.map_append, behind, shifted, List.length_cons,
        List.range_succ_eq_map, List.map_cons, List.flatMap_cons, Document.subtreeOf, here,
        List.map_map]
      rfl

/-- What is below an item are its children in turn, each with what is below it. -/
theorem Document.descendantsOf_eq_flatMap (document : Document) (node : Address) :
    document.descendantsOf node = (document.childrenOf node).flatMap document.subtreeOf := by
  cases here : document.itemAt? node with
  | none =>
      rw [descendantsOf, childrenOf, here]
      rfl
  | some item =>
      have below : ∀ index child, item.children[index]? = some child →
          document.descendantsOf (node ++ [.child (0 + index)]) =
            child.descendants.map fun way => node ++ .child (0 + index) :: way := by
        intro index child found
        rw [Nat.zero_add]
        exact descendantsOf_child here found
      have whole := Node.map_descendantsFrom below
      simp only [Nat.zero_add] at whole
      rw [descendantsOf, childrenOf, here]
      exact whole

/-- As many nodes are below an item as are counted. -/
theorem Document.length_descendantsOf (document : Document) (node : Address) :
    (document.descendantsOf node).length = document.countBelow node := by
  rw [descendantsOf, countBelow, List.length_map]
  cases document.itemAt? node with
  | none => rfl
  | some item => exact Node.length_descendantsFrom 0 item.children

end Subtrees

/-- What is below the nodes of a list: each of them, and what is below it. -/
theorem Node.mem_descendantsFrom {start : Nat} {nodes : List Node} {way : Address} :
    way ∈ descendantsFrom start nodes ↔
      ∃ index node rest, nodes[index]? = some node ∧ way = .child (start + index) :: rest ∧
        (rest = [] ∨ rest ∈ node.descendants) := by
  induction nodes generalizing start with
  | nil => simp [descendantsFrom]
  | cons first nodes ih =>
      simp only [descendantsFrom, List.mem_cons, List.mem_append, List.mem_map, ih]
      constructor
      · rintro (rfl | ⟨rest, below, rfl⟩ | ⟨index, node, rest, found, rfl, below⟩)
        · exact ⟨0, first, [], rfl, rfl, .inl rfl⟩
        · exact ⟨0, first, rest, rfl, rfl, .inr below⟩
        · refine ⟨index + 1, node, rest, found, ?_, below⟩
          rw [Nat.add_assoc, Nat.add_comm 1]
      · rintro ⟨index, node, rest, found, rfl, below⟩
        cases index with
        | zero =>
            cases found
            rcases below with rfl | below
            · exact .inl rfl
            · exact .inr (.inl ⟨rest, below, rfl⟩)
        | succ index =>
            refine .inr (.inr ⟨index, node, rest, found, ?_, below⟩)
            rw [Nat.add_assoc, Nat.add_comm 1]

/-- The ways down from an item, attributes apart, are those through children that lead to
something. -/
theorem Item.mem_descendantsFrom_children {item : Item} {way : Address} :
    way ∈ Node.descendantsFrom 0 item.children ↔
      way ≠ [] ∧ (∀ place ∈ way, place.isChild) ∧ ∃ found, item.descend? way = some found := by
  induction way generalizing item with
  | nil =>
      simp only [Node.mem_descendantsFrom, reduceCtorEq, false_and, and_false, exists_false, ne_eq,
        not_true_eq_false]
  | cons place rest ih =>
      rw [Node.mem_descendantsFrom]
      simp only [Node.descendants_eq, List.cons.injEq, Nat.zero_add, List.forall_mem_cons, ne_eq,
        reduceCtorEq, not_false_eq_true, true_and]
      have onward (node : Node) : rest ∈ Node.descendantsFrom 0 node.children ↔
          rest ≠ [] ∧ (∀ place ∈ rest, place.isChild) ∧
            ∃ found, (Item.node node).descend? rest = some found :=
        @ih (.node node)
      constructor
      · rintro ⟨index, node, rest, here, ⟨rfl, rfl⟩, below⟩
        have step : item.descend? (.child index :: rest) = (Item.node node).descend? rest := by
          rw [Item.descend?, Item.at?, here, Option.map_some, Option.bind_some]
        rw [step]
        rcases below with rfl | below
        · exact ⟨⟨rfl, fun _ member => (List.not_mem_nil member).elim⟩, _, rfl⟩
        · obtain ⟨_, through, reached⟩ := (onward node).mp below
          exact ⟨⟨rfl, through⟩, reached⟩
      · rintro ⟨⟨child, through⟩, found, reached⟩
        obtain ⟨index, rfl⟩ := Place.isChild_iff.mp child
        obtain ⟨below, there, reached⟩ := Option.bind_eq_some_iff.mp reached
        obtain ⟨node, here, rfl⟩ := Option.map_eq_some_iff.mp there
        refine ⟨index, node, rest, here, ⟨rfl, rfl⟩, ?_⟩
        by_cases last : rest = []
        · exact .inl last
        · exact .inr ((onward node).mpr ⟨last, through, found, reached⟩)

/-- The list has all that is reached by going down through children. -/
theorem Document.mem_descendantsOf {document : Document} {node other : Address}
    (held : document.Holds node) :
    other ∈ document.descendantsOf node ↔ Relation.TransGen document.IsChild node other := by
  obtain ⟨item, here⟩ := held
  simp only [descendantsOf, here, Option.map_some, Option.getD_some, List.mem_map,
    Item.mem_descendantsFrom_children, transGen_isChild_iff, Holds]
  constructor
  · rintro ⟨way, ⟨present, through, found, reached⟩, rfl⟩
    exact ⟨way, present, through, rfl, found, by rw [itemAt?_append, here]; exact reached⟩
  · rintro ⟨way, present, through, rfl, found, reached⟩
    rw [itemAt?_append, here] at reached
    exact ⟨way, ⟨present, through, found, reached⟩, rfl⟩

end Descendants

section Order

namespace Address

/-- What two addresses have in common does not count. -/
theorem precedes_append (above : Address) (first second : Address) :
    (above ++ first).precedes (above ++ second) = first.precedes second := by
  induction above with
  | nil => rfl
  | cons place places ih => simpa only [List.cons_append, precedes, ↓reduceIte] using ih

/-- A node comes before all that it contains. -/
theorem precedes_below (address : Address) {way : Address} (present : way ≠ []) :
    address.precedes (address ++ way) = true := by
  obtain ⟨place, rest, rfl⟩ := List.exists_cons_of_ne_nil present
  have same := precedes_append address [] (place :: rest)
  rwa [List.append_nil] at same

/-- Two addresses are in order where their ways part. -/
theorem precedes_of_parting (above : Address) {first second : Place}
    (before : first.precedes second = true) (firsts seconds : Address) :
    (above ++ first :: firsts).precedes (above ++ second :: seconds) = true := by
  have different : first ≠ second := by
    rintro rfl
    rw [Place.precedes_irrefl] at before
    exact Bool.false_ne_true before
  rw [precedes_append, precedes, if_neg different]
  exact before

/-- An address comes before another one only if it is above it, or where their ways part. -/
theorem precedes_cases {first second : Address} (before : first.precedes second = true) :
    (∃ way, way ≠ [] ∧ second = first ++ way) ∨
      ∃ above left right lefts rights, first = above ++ left :: lefts ∧
        second = above ++ right :: rights ∧ left.precedes right = true := by
  induction first generalizing second with
  | nil =>
      cases second with
      | nil => cases before
      | cons place places => exact .inl ⟨place :: places, List.cons_ne_nil _ _, rfl⟩
  | cons place places ih =>
      cases second with
      | nil => cases before
      | cons other others =>
          by_cases same : place = other
          · subst same
            simp only [precedes, ↓reduceIte] at before
            rcases ih before with ⟨way, present, rfl⟩ |
              ⟨above, left, right, lefts, rights, rfl, rfl, parted⟩
            · exact .inl ⟨way, present, rfl⟩
            · exact .inr ⟨place :: above, left, right, lefts, rights, rfl, rfl, parted⟩
          · simp only [precedes, same, ↓reduceIte] at before
            exact .inr ⟨[], place, other, places, others, rfl, rfl, before⟩

/-- So a list stays in order under a common way. -/
theorem Ascending.map_append {addresses : List Address} (ascending : Ascending addresses)
    (above : Address) : Ascending (addresses.map (above ++ ·)) := by
  refine List.pairwise_map.mpr (ascending.imp fun before => ?_)
  rwa [precedes_append]

/-- Addresses one step below the same item are in order if their places are. -/
theorem ascending_map_range (above : Address) (place : Nat → Place)
    (increasing : ∀ left right, left < right → (place left).precedes (place right) = true)
    (count : Nat) : Ascending ((List.range count).map fun index => above ++ [place index]) := by
  refine List.pairwise_map.mpr (List.pairwise_lt_range.imp fun before => ?_)
  exact precedes_of_parting above (increasing _ _ before) [] []

end Address

mutual

/-- Pre-order is document order. Each child comes before what is below it, and that before the next
child. -/
theorem Node.ascending_descendants : (node : Node) → Address.Ascending node.descendants
  | .element _ _ children _ => Node.ascending_descendantsFrom 0 children
  | .text _ _ => Address.ascending_nil
  | .comment _ _ => Address.ascending_nil
  | .instruction _ _ _ => Address.ascending_nil

/-- The ways down to the nodes of a list and to all below are in order: a node comes before what is
below it, and both before the next node. -/
theorem Node.ascending_descendantsFrom : (start : Nat) → (nodes : List Node) →
    Address.Ascending (Node.descendantsFrom start nodes)
  | _, [] => Address.ascending_nil
  | start, node :: nodes => by
      have inside := (Node.ascending_descendants node).map_append [.child start]
      have behind := Node.ascending_descendantsFrom (start + 1) nodes
      have onward (way : Address) (rest : Address)
          (later : way ∈ Node.descendantsFrom (start + 1) nodes) :
          Address.precedes (.child start :: rest) way = true := by
        obtain ⟨index, _, others, _, rfl, _⟩ := Node.mem_descendantsFrom.mp later
        refine Address.precedes_of_parting [] ?_ rest others
        simp only [Place.precedes, decide_eq_true_eq]
        omega
      refine List.pairwise_cons.mpr ⟨fun way member => ?_, List.pairwise_append.mpr
        ⟨inside, behind, fun way within other later => ?_⟩⟩
      · rcases List.mem_append.mp member with within | later
        · obtain ⟨rest, below, rfl⟩ := List.mem_map.mp within
          have present : rest ≠ [] := by
            rintro rfl
            rw [Node.descendants_eq, Node.mem_descendantsFrom] at below
            obtain ⟨_, _, _, _, same, _⟩ := below
            cases same
          exact Address.precedes_below [.child start] present
        · exact onward way [] later
      · obtain ⟨rest, _, rfl⟩ := List.mem_map.mp within
        exact onward other rest later

end

theorem Document.ascending_descendantsOf (document : Document) (node : Address) :
    Address.Ascending (document.descendantsOf node) := by
  cases here : document.itemAt? node with
  | none =>
      simp only [descendantsOf, here]
      exact Address.ascending_nil
  | some item =>
      simp only [descendantsOf, here]
      exact (Node.ascending_descendantsFrom 0 item.children).map_append node

end Order

end XmlRecords
