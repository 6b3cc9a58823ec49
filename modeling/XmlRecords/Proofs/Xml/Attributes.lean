import XmlRecords.Document.Address
import XmlRecords.Proofs.Xml.Invariants

/-! # Attributes of elements

The name of an attribute is one that a start tag assigns a value to, and not that of a declaration
(`Document.isNamed_of_itemAt?`). The attributes of the first element under the root are those of the
first start tag (`Xml.isKept_leading`, `Xml.leading_of_openElement`).
-/

namespace XmlRecords

/-- The name is one that a start tag can give. -/
structure Attribute.IsNamed (attr : Attribute) : Prop where
  isLocalName : Xml.IsLocalName attr.name.toList
  ne_xmlns : attr.name ≠ "xmlns"

/-- The attributes of the node and of all nodes below it are named. -/
inductive Node.IsNamed : Node → Prop
  | element {name : String} {attributes : List Attribute} {children : List Node} {markup : String}
      (here : ∀ attr ∈ attributes, attr.IsNamed) (below : ∀ child ∈ children, child.IsNamed) :
      IsNamed (.element name attributes children markup)
  | leaf {node : Node} (other : node.kind ≠ .element) : IsNamed node

/-- The attributes of the item and of all below it are named. -/
def Item.IsNamed : Item → Prop
  | root document => ∀ node ∈ document.children, node.IsNamed
  | node inner => inner.IsNamed
  | attr entry => entry.IsNamed

namespace Item.IsNamed

variable {item inner : Item}

theorem of_mem_children (named : item.IsNamed) {node : Node} (member : node ∈ item.children) :
    node.IsNamed := by
  cases item with
  | root document => exact named node member
  | attr entry => cases member
  | node inner =>
      cases (named : inner.IsNamed) with
      | element here below => exact below node member
      | leaf other =>
          cases inner with
          | element => exact absurd rfl other
          | _ => cases member

theorem of_mem_attributes (named : item.IsNamed) {attr : Attribute}
    (member : attr ∈ item.attributes) : attr.IsNamed := by
  cases item with
  | root document => cases member
  | attr entry => cases member
  | node inner =>
      cases (named : inner.IsNamed) with
      | element here below => exact here attr member
      | leaf other =>
          cases inner with
          | element => exact absurd rfl other
          | _ => cases member

theorem descend? {address : Address} (named : item.IsNamed)
    (found : Item.descend? address item = some inner) : inner.IsNamed := by
  induction address generalizing item with
  | nil =>
      cases found
      exact named
  | cons place address ih =>
      obtain ⟨next, step, found⟩ := Option.bind_eq_some_iff.mp found
      refine ih ?_ found
      cases place with
      | attr index =>
          obtain ⟨entry, here, rfl⟩ := Option.map_eq_some_iff.mp step
          exact named.of_mem_attributes (List.mem_of_getElem? here)
      | child index =>
          obtain ⟨node, here, rfl⟩ := Option.map_eq_some_iff.mp step
          exact named.of_mem_children (List.mem_of_getElem? here)

end Item.IsNamed

namespace Xml

section Pending

variable {pending next : Pending}

theorem Pending.assign_attributes {target : QualifiedName} {value : String}
    (assigned : pending.assign target value = some next) :
    next.attributes = pending.attributes ∨ target.name ≠ "xmlns" ∧
      next.attributes = pending.attributes ++ [(target.qualifier, ⟨target.name, value⟩)] := by
  unfold assign at assigned
  split at assigned
  · unfold declare at assigned
    split at assigned
    · cases assigned
    · split at assigned
      · cases assigned
        exact .inl rfl
      · split at assigned
        · cases assigned
        · cases assigned
          exact .inl rfl
  · split at assigned
    · split at assigned
      · cases assigned
      · cases assigned
        exact .inl rfl
    · rename_i other
      cases assigned
      exact .inr ⟨other, rfl⟩

theorem Pending.resolve_eq_some {outer : Scope} {attributes : List Attribute}
    (resolved : pending.resolve outer = some attributes) :
    attributes = pending.attributes.map Prod.snd := by
  simp only [resolve, Option.bind_eq_bind, Option.bind_eq_some_iff, Option.pure_def,
    Option.some.injEq] at resolved
  obtain ⟨_, _, _, _, rfl⟩ := resolved
  rfl

end Pending

/-- The attributes of all nodes and open elements are named, and so are those that are pending. -/
structure AreNamed (nodes : List Node) (opened : List OpenElement) (pending : Pending) : Prop where
  nodes : ∀ node ∈ nodes, node.IsNamed
  attributes : ∀ element ∈ opened, ∀ attr ∈ element.attributes, attr.IsNamed
  before : ∀ element ∈ opened, ∀ node ∈ element.before, node.IsNamed
  pending : ∀ entry ∈ pending.attributes, entry.2.IsNamed

theorem isKept_areNamed : IsKept AreNamed where
  node other holds := { holds with nodes := List.forall_mem_cons.mpr ⟨.leaf other, holds.nodes⟩ }
  text _ holds :=
    { holds with
      nodes := List.forall_mem_cons.mpr ⟨.leaf nofun, (List.forall_mem_cons.mp holds.nodes).2⟩ }
  assign named assigned holds := { holds with
    pending := by
      rcases Pending.assign_attributes assigned with same | ⟨other, longer⟩
      · rw [same]
        exact holds.pending
      · rw [longer]
        exact List.forall_mem_append.mpr
          ⟨holds.pending, List.forall_mem_singleton.mpr ⟨named, other⟩⟩ }
  closedTag name markup resolved holds := by
    have named := List.forall_mem_map.mpr holds.pending
    rw [← Pending.resolve_eq_some resolved] at named
    exact ⟨List.forall_mem_cons.mpr ⟨.element named (List.forall_mem_nil _), holds.nodes⟩,
      holds.attributes, holds.before, List.forall_mem_nil _⟩
  openedTag name inner start resolved holds := by
    have named := List.forall_mem_map.mpr holds.pending
    rw [← Pending.resolve_eq_some resolved] at named
    exact ⟨List.forall_mem_nil _, List.forall_mem_cons.mpr ⟨named, holds.attributes⟩,
      List.forall_mem_cons.mpr ⟨holds.nodes, holds.before⟩, List.forall_mem_nil _⟩
  endTag name markup holds := by
    obtain ⟨attributes, outerAttributes⟩ := List.forall_mem_cons.mp holds.attributes
    obtain ⟨before, outerBefore⟩ := List.forall_mem_cons.mp holds.before
    have below := fun node member => holds.nodes node (List.mem_reverse.mp member)
    exact ⟨List.forall_mem_cons.mpr ⟨.element attributes below, before⟩, outerAttributes,
      outerBefore, List.forall_mem_nil _⟩

/-- The attributes of the first element under the root, which may still be open. -/
def leading : List Node → List OpenElement → Option (List Attribute)
  | nodes, [] => (nodes.reverse.find? fun node => node.kind = .element).map Node.attributes
  | _, element :: opened =>
      leading (.element element.name.name element.attributes [] "" :: element.before) opened

section Leading

variable {node : Node} {nodes : List Node} {opened : List OpenElement} {attributes : List Attribute}

theorem leading_cons (known : leading nodes opened = some attributes) :
    leading (node :: nodes) opened = some attributes := by
  cases opened with
  | cons => exact known
  | nil =>
      obtain ⟨first, found, same⟩ := Option.map_eq_some_iff.mp known
      rw [leading, List.reverse_cons, List.find?_append, found, Option.some_or, Option.map_some,
        same]

theorem leading_cons_of_ne (other : node.kind ≠ .element) :
    leading (node :: nodes) opened = leading nodes opened := by
  cases opened with
  | cons => rfl
  | nil =>
      rw [leading, leading, List.reverse_cons, List.find?_append,
        List.find?_singleton, if_neg (by simpa using other), Option.or_none]

/-- What is inside of the first element does not matter. -/
theorem leading_element {name : String} {children : List Node} {markup : String}
    (otherName : String) (otherChildren : List Node) (otherMarkup : String) :
    leading (.element name attributes children markup :: nodes) opened =
      leading (.element otherName attributes otherChildren otherMarkup :: nodes) opened := by
  cases opened with
  | cons => rfl
  | nil =>
      simp only [leading, List.reverse_cons, List.find?_append]
      cases nodes.reverse.find? fun node => node.kind = .element <;> rfl

/-- The first element under the root stays the first one. -/
theorem isKept_leading (attributes : List Attribute) :
    IsKept fun nodes opened _ => leading nodes opened = some attributes where
  node _ holds := leading_cons holds
  text _ holds := by
    refine (leading_cons_of_ne ?_).trans ((leading_cons_of_ne ?_).symm.trans holds)
    all_goals exact nofun
  assign _ _ holds := holds
  closedTag _ _ _ holds := leading_cons holds
  openedTag _ _ _ _ holds := leading_cons holds
  endTag _ _ holds := (leading_element _ _ _).trans holds

end Leading

section FirstTag

variable {source : Array Char} {resolver : Resolver} {assignments : List Assignment}
  {assembly next : Assembly}

/-- Assignments add to what is pending, and change nothing else but the budget. -/
theorem expandAssignments_eq_some
    (expanded : expandAssignments resolver assignments assembly = some next) :
    ∃ pending budget, next = { assembly with pending := pending, budget := budget } ∧
      assembly.pending.attributes <+: pending.attributes := by
  induction assignments generalizing assembly with
  | nil =>
      cases expanded
      exact ⟨_, _, rfl, List.prefix_rfl⟩
  | cons assignment assignments ih =>
      simp only [expandAssignments, Assembly.assign, Option.bind_eq_bind,
        Option.bind_eq_some_iff, Option.pure_def, Option.some.injEq, Prod.exists] at expanded
      obtain ⟨_, _, _, _, ⟨first, assigned, rfl⟩, expanded⟩ := expanded
      obtain ⟨pending, budget, rfl, longer⟩ := ih expanded
      refine ⟨pending, budget, rfl, List.IsPrefix.trans ?_ longer⟩
      rcases Pending.assign_attributes assigned with same | ⟨-, same⟩
      · exact same ▸ List.prefix_rfl
      · exact same ▸ List.prefix_append _ _

/-- The value of an attribute without a prefix is resolved, and the attribute is pending. -/
theorem exists_expandValue_of_cons {name : String} {value : List Segment} (other : name ≠ "xmlns")
    (expanded : expandAssignments resolver (⟨⟨"", name⟩, value⟩ :: assignments) assembly =
      some next) :
    ∃ chars left, expandValue resolver value assembly.budget = some (chars, left) ∧
      ("", ⟨name, String.ofList chars⟩) ∈ next.pending.attributes := by
  simp only [expandAssignments, Assembly.assign, Option.bind_eq_bind, Option.bind_eq_some_iff,
    Option.pure_def, Option.some.injEq, Prod.exists] at expanded
  obtain ⟨chars, left, resolved, _, ⟨first, assigned, rfl⟩, expanded⟩ := expanded
  obtain ⟨pending, _, rfl, longer⟩ := expandAssignments_eq_some expanded
  have assigns : assembly.pending.assign ⟨"", name⟩ (String.ofList chars) =
      some ⟨assembly.pending.declared,
        assembly.pending.attributes ++ [("", ⟨name, String.ofList chars⟩)]⟩ := if_neg other
  rw [assigns] at assigned
  cases assigned
  exact ⟨chars, left, resolved,
    longer.subset (List.mem_append_right _ (List.mem_singleton.mpr rfl))⟩

/-- The first start tag gives its attributes to the first element. -/
theorem leading_of_openElement {pending : Pending} {budget : Nat} {name : QualifiedName}
    {ending : TagEnd} {span : Span} (complete : ending ≠ .missing)
    (opened : ({ Assembly.empty.beginTag with pending := pending, budget := budget } :
      Assembly).openElement source name ending span = some next) :
    leading next.nodes next.opened = some (pending.attributes.map Prod.snd) := by
  unfold Assembly.openElement at opened
  rw [if_neg complete] at opened
  simp only [Option.bind_eq_bind, Option.bind_eq_some_iff] at opened
  obtain ⟨attributes, resolved, _, _, opened⟩ := opened
  rw [← Pending.resolve_eq_some resolved]
  split at opened
  · cases opened
    rfl
  · cases opened
    rfl

end FirstTag

end Xml

namespace Document

variable {document : Document} {source : String}

/-- The attributes of a document are named. -/
theorem isNamed_of_itemAt? {address : Address} {attr : Attribute}
    (parsed : parse? source = some document)
    (found : document.itemAt? address = some (.attr attr)) : attr.IsNamed := by
  have empty : Xml.AreNamed [] [] .empty := ⟨nofun, nofun, nofun, nofun⟩
  obtain ⟨pending, holds⟩ := Xml.isKept_areNamed.of_parse? empty parsed
  have named : (Item.root document).IsNamed :=
    fun node member => holds.nodes node (List.mem_reverse.mpr member)
  exact named.descend? found

end Document

end XmlRecords
