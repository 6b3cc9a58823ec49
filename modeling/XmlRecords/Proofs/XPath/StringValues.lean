import XmlRecords.Proofs.XPath.Axes
import XmlRecords.Proofs.XPath.Walking
import XmlRecords.XPath.Grammar

/-! # The text of elements

The text of an element, and that of the root, can be put together in three ways: from the texts of
its children, from the text nodes among all that is below it, and from the nodes that the path
`descendant::text()` selects (`Expression.string_value_of_texts`). Comments and processing
instructions have texts of their own, but add nothing to it.
-/

namespace XmlRecords

/-- The texts of some members of a list, where the others have none. -/
theorem join_map_filter {α : Type} (chosen : α → Bool) (read : α → String) (values : List α) :
    String.join ((values.filter chosen).map read) =
      String.join (values.map fun value => if chosen value then read value else "") := by
  induction values with
  | nil => rfl
  | cons value values ih =>
      rw [List.map_cons, String.join_cons, ← ih]
      by_cases here : chosen value
      · rw [List.filter_cons_of_pos here, List.map_cons, String.join_cons, if_pos here]
      · rw [List.filter_cons_of_neg here, if_neg here, String.empty_append]

namespace Node

theorem innerTextOfAll_eq (nodes : List Node) :
    innerTextOfAll nodes = String.join (nodes.map innerText) := by
  induction nodes with
  | nil => rfl
  | cons node nodes ih => rw [innerTextOfAll, ih, List.map_cons, String.join_cons]

/-- What a node adds to the text of the element around it is its own text, if it is text or an
element. -/
theorem innerText_eq (node : Node) :
    node.innerText =
      if node.kind = .text || node.kind = .element then node.stringValue else "" := by
  cases node <;> rfl

end Node

namespace Document

variable (document : Document)

/-- The texts of the text nodes among nodes, one behind the other. -/
def textsAmong (nodes : List Address) : String :=
  String.join ((nodes.filter fun node => document.kindAt? node = some .text).map document.textAt)

variable {document}

section Texts

variable {node : Address} {inner : Node}

theorem textsAmong_append (first second : List Address) :
    document.textsAmong (first ++ second) =
      document.textsAmong first ++ document.textsAmong second := by
  rw [textsAmong, List.filter_append, List.map_append, String.join_append]
  rfl

theorem kindAt?_eq (here : document.itemAt? node = some (.node inner)) :
    document.kindAt? node = some inner.kind := by
  rw [kindAt?, here]
  rfl

theorem textAt_eq (here : document.itemAt? node = some (.node inner)) :
    document.textAt node = inner.stringValue := by
  rw [textAt, here]
  rfl

theorem itemAt?_child {item : Item} (here : document.itemAt? node = some item) {index : Nat}
    (child : item.children[index]? = some inner) :
    document.itemAt? (node ++ [.child index]) = some (.node inner) := by
  rw [itemAt?_concat, here, Option.bind_some, Item.at?, child, Option.map_some]

theorem textsAmong_singleton (here : document.itemAt? node = some (.node inner)) :
    document.textsAmong [node] = if inner.kind = .text then inner.stringValue else "" := by
  rw [textsAmong, List.filter_singleton, kindAt?_eq here]
  by_cases text : inner.kind = .text
  · simp [text, textAt_eq here, String.join_cons]
  · simp [text]

end Texts

mutual

/-- The text nodes of a tree are the node itself, if it is text, and those below it. -/
theorem textsAmong_descendants {node : Address} : (inner : Node) →
    (here : document.itemAt? node = some (.node inner)) →
    document.textsAmong (node :: inner.descendants.map (node ++ ·)) = inner.innerText
  | .element name attributes children markup, here => by
      have below := textsAmong_descendantsFrom node 0 children fun index inner child => by
        rw [Nat.zero_add]
        exact itemAt?_child here child
      rw [← List.singleton_append, textsAmong_append, textsAmong_singleton here,
        Node.descendants, below]
      exact String.empty_append
  | .text content markup, here => textsAmong_singleton here
  | .comment content markup, here => textsAmong_singleton here
  | .instruction target content markup, here => textsAmong_singleton here

theorem textsAmong_descendantsFrom (node : Address) (start : Nat) : (nodes : List Node) →
    (here : ∀ index inner, nodes[index]? = some inner →
      document.itemAt? (node ++ [.child (start + index)]) = some (.node inner)) →
    document.textsAmong ((Node.descendantsFrom start nodes).map (node ++ ·)) =
      Node.innerTextOfAll nodes
  | [], _ => rfl
  | first :: nodes, here => by
      have inside := textsAmong_descendants first (here 0 first rfl)
      have behind := textsAmong_descendantsFrom node (start + 1) nodes
        fun index inner child => by
          rw [Nat.add_assoc, Nat.add_comm 1]
          exact here (index + 1) inner child
      have split : (Node.descendantsFrom start (first :: nodes)).map (node ++ ·) =
          ((node ++ [.child start]) ::
            first.descendants.map ((node ++ [.child start]) ++ ·)) ++
              (Node.descendantsFrom (start + 1) nodes).map (node ++ ·) := by
        simp [Node.descendantsFrom]
      rw [split, textsAmong_append, behind, Node.innerTextOfAll]
      exact congrArg (· ++ _) inside

end

section Elements

variable {node : Address} {item : Item}

theorem textsAmong_descendantsOf (here : document.itemAt? node = some item) :
    document.textsAmong (document.descendantsOf node) = Node.innerTextOfAll item.children := by
  rw [descendantsOf, here]
  exact textsAmong_descendantsFrom node 0 item.children fun index inner child => by
    rw [Nat.zero_add]
    exact itemAt?_child here child

/-- What is said of the children of an item by their addresses is said of the nodes. -/
theorem map_childrenOf {α : Type} {find : Address → α} {read : Node → α}
    (here : document.itemAt? node = some item)
    (same : ∀ index inner, item.children[index]? = some inner →
      find (node ++ [.child index]) = read inner) :
    (document.childrenOf node).map find = item.children.map read := by
  rw [childrenOf, here]
  refine List.ext_getElem (by simp) fun index bound _ => ?_
  simp only [Option.map_some, Option.getD_some, List.length_map, List.length_range] at bound
  simp [same index _ (List.getElem?_eq_getElem bound)]

/-- The text inside an item is that of its children of two kinds. -/
theorem textsOfChildren_eq (here : document.itemAt? node = some item) :
    String.join (((document.childrenOf node).filter fun child =>
        document.kindAt? child = some .text || document.kindAt? child = some .element).map
          document.textAt) =
      Node.innerTextOfAll item.children := by
  rw [join_map_filter, Node.innerTextOfAll_eq]
  refine congrArg String.join (map_childrenOf here fun index inner child => ?_)
  have below := itemAt?_child here child
  simp only [kindAt?_eq below, textAt_eq below, Option.some.injEq, Node.innerText_eq]

/-- The text of an element or of the root is the text inside of it. -/
theorem textAt_eq_innerTextOfAll (here : document.itemAt? node = some item)
    (kind : document.kindAt? node = some .root ∨ document.kindAt? node = some .element) :
    document.textAt node = Node.innerTextOfAll item.children := by
  rw [kindAt?, here, Option.map_some] at kind
  rw [textAt, here]
  cases item with
  | root document => rfl
  | attr entry => simp [Item.kind] at kind
  | node inner =>
      cases inner with
      | element name attributes children markup => rfl
      | _ => simp [Item.kind, Node.kind] at kind

end Elements

end Document

namespace XPath

namespace Expression

theorem parse_descendant_text :
    parse "descendant::text()" = .ok (.path false [.mk .descendant .text []]) :=
  rfl

/-- The path finds text nodes in document order, so that putting them into order changes nothing. -/
theorem select_descendant_text (document : Document) (node root : Address) :
    (path false [.mk .descendant .text []]).select document node root =
      .ok ((document.descendantsOf node).filter fun other =>
        document.kindAt? other = some .text) := by
  have ascending := (document.ascending_descendantsOf node).filter fun other =>
    document.kindAt? other = some .text
  have walked : (path false [.mk .descendant .text []]).select document node root =
      .ok (Address.inOrder ((nodesBelow document node).filter (fun other =>
        document.kindAt? other = some .text) ++ [])) := rfl
  rw [walked, nodesBelow_eq, List.append_nil, Address.Ascending.inOrder_eq ascending]

/-- The text of an element, or of the root, is that of its text and element children, one behind the
other, and that of all text nodes below it; these are what the path `descendant::text()` selects, in
this order. -/
theorem string_value_of_texts (document : Document) (node root : Address)
    (kind : document.kindAt? node = some .root ∨ document.kindAt? node = some .element) :
    document.textAt node =
      String.join (((document.childrenOf node).filter fun child =>
        document.kindAt? child = some .text || document.kindAt? child = some .element).map
          document.textAt) ∧
    document.textAt node = document.textsAmong (document.descendantsOf node) ∧
    ∃ path found, parse "descendant::text()" = .ok path ∧
      path.select document node root = .ok found ∧
        document.textAt node = String.join (found.map document.textAt) := by
  obtain ⟨item, here⟩ : ∃ item, document.itemAt? node = some item := by
    cases here : document.itemAt? node with
    | none => simp [Document.kindAt?, here] at kind
    | some item => exact ⟨item, rfl⟩
  have text := Document.textAt_eq_innerTextOfAll here kind
  have below := text.trans (Document.textsAmong_descendantsOf here).symm
  exact ⟨text.trans (Document.textsOfChildren_eq here).symm, below, _, _, parse_descendant_text,
    select_descendant_text document node root, below⟩

/-- The text of an element in which a comment, an instruction and another element stand among
text. -/
theorem string_value_of_texts_nested :
    let document : Document :=
      ⟨[.element "a" [⟨"id", "1"⟩] [.text "one" "", .element "b" [] [.text "two" ""] "",
        .comment "no" "", .instruction "no" "no" "", .text "three" ""] ""], ""⟩
    let node : Address := [.child 0]
    document.kindAt? node = some .element ∧
      document.textAt node = String.join ["one", "two", "three"] ∧
        ∃ path found, parse "descendant::text()" = .ok path ∧
          path.select document node [] = .ok found ∧
            document.textAt node = String.join (found.map document.textAt) := by
  intro document node
  obtain ⟨children, _, selected⟩ := string_value_of_texts document node [] (.inr rfl)
  exact ⟨rfl, children, selected⟩

end Expression

end XPath

end XmlRecords
