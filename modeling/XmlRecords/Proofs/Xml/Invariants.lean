import XmlRecords.Proofs.Xml.Names
import XmlRecords.Xml.Reading

/-! # What holds while a document is put together

A document grows by few kinds of steps: nodes are added, and texts lengthened; names are assigned;
elements are opened and closed. What each of these steps keeps (`IsKept`) holds of the whole
document, however its pieces come out of the entities that they refer to (`IsKept.addTokens`,
`IsKept.outside`).
-/

namespace XmlRecords

namespace Xml

/-- A property of the nodes so far, the open elements and the pending assignments, which no step
breaks. Elements are added with the attributes that their assignments resolve to. -/
structure IsKept (kept : List Node → List OpenElement → Pending → Prop) : Prop where
  node {nodes : List Node} {opened : List OpenElement} {pending : Pending} {node : Node}
    (other : node.kind ≠ .element) (holds : kept nodes opened pending) :
    kept (node :: nodes) opened pending
  text {nodes : List Node} {opened : List OpenElement} {pending : Pending} {content markup : String}
    (longer : String) (holds : kept (.text content markup :: nodes) opened pending) :
    kept (.text longer markup :: nodes) opened pending
  assign {nodes : List Node} {opened : List OpenElement} {pending next : Pending}
    {target : QualifiedName} {value : String} (named : IsLocalName target.name.toList)
    (assigned : pending.assign target value = some next) (holds : kept nodes opened pending) :
    kept nodes opened next
  closedTag {nodes : List Node} {opened : List OpenElement} {pending : Pending}
    {attributes : List Attribute} {outer : Scope} (name markup : String)
    (resolved : pending.resolve outer = some attributes) (holds : kept nodes opened pending) :
    kept (.element name attributes [] markup :: nodes) opened .empty
  openedTag {nodes : List Node} {opened : List OpenElement} {pending : Pending}
    {attributes : List Attribute} {outer : Scope} (name : QualifiedName) (inner : Scope)
    (start : Nat) (resolved : pending.resolve outer = some attributes)
    (holds : kept nodes opened pending) :
    kept [] (⟨name, attributes, inner, start, nodes⟩ :: opened) .empty
  endTag {nodes : List Node} {opened : List OpenElement} {pending : Pending}
    {element : OpenElement} (name markup : String)
    (holds : kept nodes (element :: opened) pending) :
    kept (.element name element.attributes nodes.reverse markup :: element.before) opened .empty

namespace Assembly

variable (assembly : Assembly)

theorem endText_pending : assembly.endText.pending = assembly.pending := by
  unfold endText
  split <;> rfl

theorem endText_withPending (pending : Pending) :
    { assembly with pending := pending }.endText =
      { assembly.endText with pending := pending } := by
  unfold endText
  dsimp only
  split <;> rfl

end Assembly

/-- A document is finished if all elements are closed and one has been there. -/
theorem Assembly.finish?_eq_some_iff {assembly : Assembly} {nodes : List Node} :
    assembly.finish? = some nodes ↔
      assembly.opened = [] ∧ (∃ node ∈ assembly.nodes, node.kind = .element) ∧
        assembly.nodes.reverse = nodes := by
  simp only [finish?, Option.ite_none_right_eq_some, Bool.and_eq_true, List.isEmpty_iff,
    List.any_eq_true, decide_eq_true_eq, Option.some.injEq, and_assoc]

end Xml

/-- A text describes a document if it can be taken apart, and its pieces put together. -/
theorem Document.parse?_eq_some_iff {source : String} {document : Document} :
    parse? source = some document ↔
      ∃ written assembly, Xml.written? source.toList = some written ∧
        Xml.addTokens source.toList.toArray
          (.outside source.toList.toArray written.entities) written.tokens .empty =
            some assembly ∧
          assembly.opened = [] ∧ (∃ node ∈ assembly.nodes, node.kind = .element) ∧
            document = ⟨assembly.nodes.reverse, source⟩ := by
  simp only [parse?, Option.bind_eq_bind, Option.bind_eq_some_iff, Option.pure_def,
    Option.some.injEq, Xml.Assembly.finish?_eq_some_iff]
  constructor
  · rintro ⟨written, taken, assembly, added, _, ⟨closed, element, rfl⟩, rfl⟩
    exact ⟨written, assembly, taken, added, closed, element, rfl⟩
  · rintro ⟨written, assembly, taken, added, closed, element, rfl⟩
    exact ⟨written, taken, assembly, added, _, ⟨closed, element, rfl⟩, rfl⟩

namespace Xml

/-- The property holds of what has been put together. -/
def Assembly.Meets (assembly : Assembly) (kept : List Node → List OpenElement → Pending → Prop) :
    Prop :=
  kept assembly.nodes assembly.opened assembly.pending

/-- The content of entities does not break the property. -/
def Resolver.Keeps (resolver : Resolver) (kept : List Node → List OpenElement → Pending → Prop) :
    Prop :=
  ∀ name (assembly next : Assembly), resolver.addContent name assembly = some next →
    assembly.Meets kept → next.Meets kept

namespace IsKept

variable {kept : List Node → List OpenElement → Pending → Prop} {source : Array Char}
  {resolver : Resolver} {assembly next : Assembly}

section Steps

variable (invariant : IsKept kept)

include invariant

/-- A text is added as a node, unless it is empty. -/
theorem addText (content markup : String) (holds : assembly.Meets kept) :
    (assembly.addText content markup).Meets kept := by
  unfold Assembly.addText
  split
  · exact invariant.node nofun holds
  · exact holds

/-- Ending a text changes its content, and only if it is the last node. -/
theorem endText (holds : assembly.Meets kept) : assembly.endText.Meets kept := by
  unfold Assembly.endText
  split
  · rename_i same
    rw [Assembly.Meets, same] at holds
    exact invariant.text _ holds
  · exact holds

theorem addNode {node : Node} (other : node.kind ≠ .element) (holds : assembly.Meets kept) :
    (assembly.addNode node).Meets kept :=
  invariant.node other (invariant.endText holds)

/-- A start tag opens an element or adds one without children, and both resolve the pending
assignments. -/
theorem openElement {name : QualifiedName} {ending : TagEnd} {span : Span}
    (opened : assembly.openElement source name ending span = some next)
    (holds : assembly.Meets kept) : next.Meets kept := by
  unfold Assembly.openElement at opened
  split at opened
  · cases opened
    exact holds
  · simp only [Option.bind_eq_bind, Option.bind_eq_some_iff] at opened
    obtain ⟨attributes, resolved, _, _, opened⟩ := opened
    split at opened
    · cases opened
      have ended := invariant.endText holds
      rw [← assembly.endText_pending] at resolved
      rw [Assembly.Meets, Assembly.addNode, Assembly.endText_withPending]
      exact invariant.closedTag _ _ resolved ended
    · cases opened
      exact invariant.openedTag _ _ _ resolved holds

/-- An end tag adds the open element with the nodes since then as its children. -/
theorem closeElement {name : QualifiedName} {span : Span}
    (closed : assembly.closeElement source name span = some next)
    (holds : assembly.Meets kept) : next.Meets kept := by
  have ended := invariant.endText holds
  unfold Assembly.closeElement at closed
  dsimp only at closed
  split at closed
  · cases closed
  · rename_i element opened innermost
    simp only [Option.bind_eq_bind, Option.bind_eq_some_iff] at closed
    obtain ⟨_, _, _, _, closed⟩ := closed
    cases closed
    rw [Assembly.Meets, innermost] at ended
    exact invariant.endTag _ _ ended

/-- Text comes in parts, references to entities among them. The induction is on the parts. -/
theorem expandText {markup : String} {segments : List Segment} (inner : resolver.Keeps kept)
    {text : List Char} {behindReference : Bool}
    (expanded : Xml.expandText resolver markup text behindReference segments assembly = some next)
    (holds : assembly.Meets kept) : next.Meets kept := by
  have added (text : List Char) {assembly : Assembly} (holds : assembly.Meets kept) :
      (addReversed markup text assembly).Meets kept := by
    unfold addReversed
    split
    · exact holds
    · exact invariant.addText _ _ holds
  induction segments generalizing text behindReference assembly with
  | nil =>
      cases expanded
      exact added text holds
  | cons segment segments ih =>
      cases segment with
      | run chars => exact ih expanded holds
      | reference char =>
          rw [Xml.expandText] at expanded
          split at expanded
          · exact ih expanded holds
          · exact ih expanded holds
      | entity name =>
          obtain ⟨middle, content, expanded⟩ := Option.bind_eq_some_iff.mp expanded
          exact ih expanded (inner name _ middle content (added text holds))

/-- Assignments are taken up one after the other, each with a local name. -/
theorem expandAssignments {assignments : List Assignment}
    (named : ∀ assignment ∈ assignments, IsLocalName assignment.target.name.toList)
    (expanded : Xml.expandAssignments resolver assignments assembly = some next)
    (holds : assembly.Meets kept) : next.Meets kept := by
  induction assignments generalizing assembly with
  | nil =>
      cases expanded
      exact holds
  | cons assignment assignments ih =>
      obtain ⟨here, others⟩ := List.forall_mem_cons.mp named
      simp only [Xml.expandAssignments, Assembly.assign, Option.bind_eq_bind,
        Option.bind_eq_some_iff, Option.pure_def, Option.some.injEq, Prod.exists] at expanded
      obtain ⟨_, _, _, _, ⟨pending, assigned, rfl⟩, expanded⟩ := expanded
      exact ih others expanded (invariant.assign here assigned holds)

/-- A piece of content keeps what the steps keep. -/
theorem addToken {token : Token} (inner : resolver.Keeps kept) (named : token.IsNamed)
    (added : Xml.addToken source resolver assembly token = some next)
    (holds : assembly.Meets kept) : next.Meets kept := by
  cases token with
  | startTag name assignments ending span =>
      simp only [Xml.addToken, Option.bind_eq_bind, Option.bind_eq_some_iff] at added
      obtain ⟨_, _, middle, expanded, opened⟩ := added
      have begun : assembly.beginTag.Meets kept := invariant.endText holds
      exact invariant.openElement opened (invariant.expandAssignments named expanded begun)
  | endTag name span => exact invariant.closeElement added holds
  | text segments span => exact invariant.expandText inner added holds
  | «section» content span =>
      cases added
      exact invariant.addText _ _ holds
  | comment content span =>
      cases added
      exact invariant.addNode nofun holds
  | instruction target content span =>
      cases added
      exact invariant.addNode nofun holds

/-- A run of pieces of content keeps what the steps keep. -/
theorem addTokens {tokens : List Token} (inner : resolver.Keeps kept)
    (named : ∀ token ∈ tokens, token.IsNamed)
    (added : Xml.addTokens source resolver tokens assembly = some next)
    (holds : assembly.Meets kept) : next.Meets kept := by
  induction tokens generalizing assembly with
  | nil =>
      cases added
      exact holds
  | cons token tokens ih =>
      obtain ⟨here, others⟩ := List.forall_mem_cons.mp named
      obtain ⟨middle, first, behind⟩ := Option.bind_eq_some_iff.mp added
      exact ih others behind (invariant.addToken inner here first holds)

/-- Entities keep what the steps keep, at every depth. -/
theorem inside (entities : List Entity) (depth : Nat) :
    (Resolver.inside source entities depth).Keeps kept := by
  induction depth with
  | zero => exact nofun
  | succ depth ih =>
      intro name assembly next added holds
      obtain ⟨entity, -, content⟩ := Option.bind_eq_some_iff.mp added
      simp only [Entity.addContent, Option.bind_eq_bind, Option.bind_eq_some_iff, Option.pure_def,
        Option.some.injEq, Prod.exists] at content
      obtain ⟨_, _, tokens, _, read, middle, content, rfl⟩ := content
      have inside : middle.Meets kept :=
        invariant.addTokens ih (isNamed_of_readTokens read) content holds
      exact inside

theorem outside (entities : List Entity) : (Resolver.outside source entities).Keeps kept :=
  fun name _ next added holds =>
    invariant.inside entities entityDepth name _ next added holds

/-- What holds of nothing at all, and is kept by the steps, holds of every document. -/
theorem of_parse? {text : String} {document : Document} (empty : kept [] [] .empty)
    (parsed : Document.parse? text = some document) :
    ∃ pending, kept document.children.reverse [] pending := by
  obtain ⟨written, assembly, taken, added, closed, -, rfl⟩ :=
    Document.parse?_eq_some_iff.mp parsed
  have holds := invariant.addTokens (invariant.outside written.entities)
    (isNamed_of_written? taken) added empty
  rw [Assembly.Meets, closed] at holds
  exact ⟨assembly.pending, by rwa [List.reverse_reverse]⟩

end Steps

end IsKept

end Xml

end XmlRecords
