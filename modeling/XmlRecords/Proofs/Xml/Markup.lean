import XmlRecords.Proofs.Xml.Attributes
import XmlRecords.Proofs.Xml.Values

/-! # Markup of attributes

The markup of an attribute is its name, and between quotation marks its value as it is. It can be
read again just if all characters of the value stand for themselves there
(`Document.readsBack_iff`).
-/

namespace XmlRecords

/-- The first element under the root. -/
def Document.rootElement? (document : Document) : Option Node :=
  document.children.find? fun node => node.kind = .element

/-- A tag with the markup of the attribute makes a document, of which the root element has this
attribute and no other. -/
def Attribute.ReadsBack (attr : Attribute) : Prop :=
  ∃ document root, Document.parse? ("<r " ++ attr.markup ++ "/>") = some document ∧
    document.rootElement? = some root ∧ root.attributes = [attr]

namespace Xml

/-- Between quotation marks the character stands for itself. -/
def IsVerbatim (char : Char) : Prop :=
  isAllowed char = true ∧ char ∉ ['"', '<', '&', '\t', '\n', '\r']

instance (char : Char) : Decidable (IsVerbatim char) :=
  inferInstanceAs (Decidable (_ ∧ _))

section Assignments

variable {name quoted rest : List Char}

theorem isVerbatim_iff {char : Char} :
    IsVerbatim char ↔
      (isAllowed char = true ∧ char ≠ '<') ∧ char ≠ '"' ∧ IsUnresolved char := by
  simp only [IsVerbatim, IsUnresolved, List.mem_cons, List.not_mem_nil, or_false, not_or]
  tauto

theorem isSpace_of_isNameStart {char : Char} (start : isNameStart char = true) :
    isSpace char = false := by
  refine Bool.eq_false_iff.mpr fun space => ?_
  simp only [isSpace, Bool.or_eq_true, decide_eq_true_eq] at space
  rcases space with ((rfl | rfl) | rfl) | rfl
  all_goals revert start; decide

theorem skipSpace_append (named : IsLocalName name) : skipSpace (name ++ rest) = name ++ rest := by
  cases name with
  | nil => cases named.begins
  | cons char name =>
      exact List.dropWhile_cons_of_neg (ne_true_of_eq_false (isSpace_of_isNameStart named.begins))

theorem readQualifiedName_append (named : IsLocalName name) :
    readQualifiedName (name ++ '=' :: rest) = some (⟨"", String.ofList name⟩, '=' :: rest) := by
  have ended : ∀ char ∈ ('=' :: rest).head?, isPlainNameChar char = false :=
    forall_mem_head?_cons (by decide)
  rw [readQualifiedName, span_append named.plain ended]
  exact if_pos named.begins

/-- Behind a space, a name and an equals sign, the value of an assignment goes up to the next
quotation mark. -/
theorem readSpacedAssignment_quoted_iff (named : IsLocalName name) {assignment : Assignment} :
    readSpacedAssignment (' ' :: (name ++ '=' :: '"' :: quoted)) = some (assignment, rest) ↔
      assignment.target = ⟨"", String.ofList name⟩ ∧
        ∃ content, quoted = content ++ '"' :: rest ∧ '"' ∉ content ∧
          (∀ char ∈ content, isAllowed char = true ∧ char ≠ '<') ∧
            segments content = some assignment.value := by
  rw [readSpacedAssignment_eq_some_iff]
  constructor
  · rintro ⟨behindSpace, content, spaced, assigned, taken⟩
    obtain rfl : name ++ '=' :: '"' :: quoted = behindSpace :=
      (skipSpace_append named).symm.trans (Option.some.inj spaced)
    obtain ⟨behindName, behindMark, read, marked, written, inside⟩ :=
      readAssignment_eq_some_iff.mp assigned
    rw [readQualifiedName_append named, Option.some.injEq, Prod.mk.injEq] at read
    obtain ⟨target, rfl⟩ := read
    obtain rfl : '"' :: quoted = behindMark := Option.some.inj marked
    obtain ⟨whole, plain⟩ := readQuoted_eq_some_iff.mp written
    exact ⟨target.symm, content, whole, plain, inside, taken⟩
  · rintro ⟨target, content, whole, plain, inside, taken⟩
    have written : readQuoted ('"' :: quoted) = some (content, rest) :=
      readQuoted_eq_some_iff.mpr ⟨whole, plain⟩
    refine ⟨_, content, congrArg some (skipSpace_append named), ?_, taken⟩
    rw [target]
    exact readAssignment_eq_some_iff.mpr
      ⟨_, _, readQualifiedName_append named, rfl, written, inside⟩

/-- A text up to the first quotation mark that is not shorter than a quoted value is the value. -/
theorem eq_of_quoted {value content tail : List Char}
    (whole : value ++ '"' :: tail = content ++ '"' :: rest) (plain : '"' ∉ content)
    (long : value.length ≤ content.length) : content = value := by
  obtain ⟨more, rfl⟩ : value <+: content :=
    List.prefix_of_prefix_length_le ⟨_, whole⟩ (List.prefix_append _ _) long
  rw [List.append_assoc, List.append_cancel_left_eq] at whole
  cases more with
  | nil => exact List.append_nil value
  | cons char more =>
      obtain rfl := (List.cons.inj whole).1
      exact absurd (List.mem_append_right value List.mem_cons_self) plain

end Assignments

section Tags

variable {text rest : List Char} {token : Token}

theorem rest_eq_nil_of_readTagEnd (read : readTagEnd text = some (.missing, rest)) :
    rest = [] := by
  unfold readTagEnd at read
  split at read
  · cases read
    rfl
  · split at read <;> cases read

/-- Before a start tag nothing is declared. -/
theorem written?_tag (text : List Char) :
    written? ('<' :: 'r' :: text) =
      (readElement 0 ('<' :: 'r' :: text)).bind fun element =>
        (guard (skipSpace (many readMiscellaneous element.2).2).isEmpty : Option Unit).bind fun _ =>
          some ⟨[], element.1 ++ (many readMiscellaneous element.2).1⟩ :=
  rfl

/-- If the start tag ends the text, and the element does not go on, there is nothing else. -/
theorem exists_of_written? {type : DocumentType}
    (written : written? ('<' :: 'r' :: text) = some type) :
    type.entities = [] ∧ ∃ token rest others,
      readStartTag 0 ('<' :: 'r' :: text) = some (token, rest) ∧ type.tokens = token :: others ∧
        (rest = [] → token.depthBehind 0 ≠ some 1 → others = []) := by
  rw [written?_tag] at written
  obtain ⟨⟨root, rest⟩, element, written⟩ := Option.bind_eq_some_iff.mp written
  obtain ⟨_, -, written⟩ := Option.bind_eq_some_iff.mp written
  obtain rfl := Option.some.inj written
  refine ⟨rfl, ?_⟩
  simp only [readElement, Option.bind_eq_bind, Option.bind_eq_some_iff, Option.pure_def,
    Prod.exists] at element
  obtain ⟨token, behind, read, element⟩ := element
  refine ⟨token, behind, ?_⟩
  split at element
  · rename_i goesOn
    simp only [Option.bind_eq_some_iff, Prod.exists, Option.some.injEq, Prod.mk.injEq] at element
    obtain ⟨others, _, _, rfl, rfl⟩ := element
    exact ⟨_, read, rfl, fun _ other => absurd goesOn other⟩
  · cases element
    refine ⟨_, read, rfl, ?_⟩
    rintro rfl -
    rfl

theorem written?_of_readStartTag
    (read : readStartTag 0 ('<' :: 'r' :: text) = some (token, []))
    (closed : token.depthBehind 0 ≠ some 1) :
    written? ('<' :: 'r' :: text) = some ⟨[], [token]⟩ := by
  have element : readElement 0 ('<' :: 'r' :: text) = some ([token], []) := by
    simp only [readElement, read, Option.bind_eq_bind, Option.bind_some, if_neg closed,
      Option.pure_def]
  rw [written?_tag, element]
  rfl

/-- The root element has what its start tag assigns. -/
theorem exists_readStartTag_of_parse? {source : String} {document : Document} {root : Node}
    (begins : source.toList = '<' :: 'r' :: text)
    (parsed : Document.parse? source = some document)
    (found : document.rootElement? = some root) :
    ∃ name assignments ending span rest pending budget,
      readStartTag 0 ('<' :: 'r' :: text) = some (.startTag name assignments ending span, rest) ∧
        expandAssignments (.outside source.toList.toArray []) assignments Assembly.empty.beginTag =
          some { Assembly.empty.beginTag with pending := pending, budget := budget } ∧
            root.attributes = pending.attributes.map Prod.snd := by
  obtain ⟨⟨entities, tokens⟩, assembly, written, added, closed, ⟨element, member, kind⟩, rfl⟩ :=
    Document.parse?_eq_some_iff.mp parsed
  have named := isNamed_of_written? written
  rw [begins] at written
  obtain ⟨rfl, token, rest, others, read, rfl, alone⟩ := exists_of_written? written
  obtain ⟨_, name, _, ending, _, _, ended, rfl⟩ := readStartTag_eq_some_iff.mp read
  obtain ⟨next, first, added⟩ := Option.bind_eq_some_iff.mp added
  simp only [addToken, Option.bind_eq_bind, Option.bind_eq_some_iff] at first
  obtain ⟨_, _, _, expanded, opened⟩ := first
  obtain ⟨pending, budget, rfl, -⟩ := expandAssignments_eq_some expanded
  have complete : ending ≠ .missing := by
    rintro rfl
    obtain rfl := alone (rest_eq_nil_of_readTagEnd ended) (mt Option.some.inj Nat.zero_ne_one)
    obtain rfl := Option.some.inj opened
    obtain rfl := Option.some.inj added
    cases member
  have invariant := isKept_leading (pending.attributes.map Prod.snd)
  have leads := invariant.addTokens (invariant.outside [])
    (List.forall_mem_cons.mp named).2 added (leading_of_openElement complete opened)
  rw [Assembly.Meets, closed] at leads
  refine ⟨name, _, ending, _, rest, pending, budget, read, expanded, ?_⟩
  obtain ⟨first, here, same⟩ := Option.map_eq_some_iff.mp leads
  rw [← same, Option.some.inj (here.symm.trans found)]

end Tags

end Xml

namespace Attribute

/-- What comes behind the name of the element, and a space, in a tag with the markup of the
attribute. -/
def inTag (attr : Attribute) : List Char :=
  attr.name.toList ++ '=' :: '"' :: (attr.value.toList ++ '"' :: ['/', '>'])

variable {attr : Attribute}

theorem toList_tag (attr : Attribute) :
    ("<r " ++ attr.markup ++ "/>").toList = '<' :: 'r' :: ' ' :: attr.inTag := by
  simp [markup, inTag]

section Refused

/-- If the attribute reads back, it is the first assignment of the tag that gives it. -/
theorem exists_assignment_of_readsBack (named : attr.IsNamed) (reads : attr.ReadsBack) :
    ∃ parts rest resolver budget left,
      Xml.readSpacedAssignment (' ' :: attr.inTag) = some (⟨⟨"", attr.name⟩, parts⟩, rest) ∧
        (∀ name budget, resolver.chars name budget = none) ∧
          Xml.expandValue resolver parts budget = some (attr.value.toList, left) := by
  obtain ⟨document, root, parsed, found, only⟩ := reads
  obtain ⟨_, assignments, _, _, _, pending, _, read, expanded, attributes⟩ :=
    Xml.exists_readStartTag_of_parse? attr.toList_tag parsed found
  rw [only] at attributes
  obtain ⟨_, _, behindName, _, marked, qualified, -, same⟩ :=
    Xml.readStartTag_eq_some_iff.mp read
  obtain rfl := Option.some.inj marked
  obtain rfl : ' ' :: attr.inTag = behindName := congrArg Prod.snd (Option.some.inj qualified)
  cases same
  cases first : Xml.readSpacedAssignment (' ' :: attr.inTag) with
  | none =>
      rw [(Repeats.stop first).many_eq] at expanded
      cases expanded
      cases attributes
  | some taken =>
      obtain ⟨⟨target, parts⟩, rest⟩ := taken
      obtain ⟨others, all⟩ := exists_many_eq_cons first
      obtain ⟨rfl, -⟩ := (Xml.readSpacedAssignment_quoted_iff named.isLocalName).mp first
      rw [all, String.ofList_toList] at expanded
      obtain ⟨chars, left, resolved, member⟩ :=
        Xml.exists_expandValue_of_cons named.ne_xmlns expanded
      have same := List.mem_singleton.mp (attributes ▸ List.mem_map_of_mem member)
      obtain rfl : chars = attr.value.toList := by
        rw [← congrArg Attribute.value same, String.toList_ofList]
      exact ⟨parts, rest, _, _, left, by rw [String.ofList_toList], fun _ _ => rfl, resolved⟩

theorem isVerbatim_of_readsBack (named : attr.IsNamed) (reads : attr.ReadsBack) :
    ∀ char ∈ attr.value.toList, Xml.IsVerbatim char := by
  obtain ⟨parts, rest, resolver, budget, left, first, none, resolved⟩ :=
    exists_assignment_of_readsBack named reads
  obtain ⟨-, content, whole, plain, inside, taken⟩ :=
    (Xml.readSpacedAssignment_quoted_iff named.isLocalName).mp first
  -- The value is what its own beginning, up to a quotation mark, is resolved to.
  obtain ⟨long, unresolved⟩ := Xml.length_le_of_expandValue none taken resolved
  obtain rfl := Xml.eq_of_quoted whole plain long
  intro char member
  exact Xml.isVerbatim_iff.mpr
    ⟨inside char member, fun same => plain (same ▸ member), unresolved rfl char member⟩

end Refused

section Accepted

/-- A single tag makes an element without content. -/
theorem addTokens_tag (other : attr.name ≠ "xmlns") {parts : List Xml.Segment}
    (expanded : ∀ resolver budget,
      Xml.expandValue resolver parts budget = some (attr.value.toList, budget))
    (source : Array Char) (resolver : Xml.Resolver) (span : Xml.Span) :
    Xml.addTokens source resolver
      [.startTag ⟨"", "r"⟩ [⟨⟨"", attr.name⟩, parts⟩] .closed span] .empty =
        some { Xml.Assembly.empty.beginTag with
          nodes := [.element "r" [attr] [] (span.markup source)] } := by
  have assigned :
      Xml.expandAssignments resolver [⟨⟨"", attr.name⟩, parts⟩] Xml.Assembly.empty.beginTag =
        some { Xml.Assembly.empty.beginTag with pending := ⟨[], [("", attr)]⟩ } := by
    simp only [Xml.expandAssignments, expanded, Option.bind_eq_bind, Option.bind_some,
      Xml.Assembly.assign, Xml.Pending.assign, other, String.ofList_toList]
    rfl
  change ((Xml.expandAssignments resolver _ Xml.Assembly.empty.beginTag).bind fun assembly =>
    assembly.openElement source ⟨"", "r"⟩ .closed span).bind some = _
  rw [assigned]
  rfl

theorem readsBack_of_isVerbatim (named : attr.IsNamed)
    (verbatim : ∀ char ∈ attr.value.toList, Xml.IsVerbatim char) : attr.ReadsBack := by
  have each := fun char member => Xml.isVerbatim_iff.mp (verbatim char member)
  obtain ⟨parts, taken, expanded⟩ :=
    Xml.exists_segments_of_isUnresolved fun char member => (each char member).2.2
  have first : Xml.readSpacedAssignment (' ' :: attr.inTag) =
      some (⟨⟨"", attr.name⟩, parts⟩, ['/', '>']) := by
    have target : (⟨"", attr.name⟩ : Xml.QualifiedName) =
        ⟨"", String.ofList attr.name.toList⟩ := by rw [String.ofList_toList]
    exact (Xml.readSpacedAssignment_quoted_iff named.isLocalName).mpr
      ⟨target, attr.value.toList, rfl, fun member => (each '"' member).2.1 rfl,
        fun char member => (each char member).1, taken⟩
  have shorter : ['/', '>'].length < (' ' :: attr.inTag).length := by
    simp only [inTag, List.length_cons, List.length_append, List.length_nil]
    omega
  have all := (Repeats.next first shorter (.stop rfl)).many_eq
  have read : Xml.readStartTag 0 ('<' :: 'r' :: ' ' :: attr.inTag) =
      some (.startTag ⟨"", "r"⟩ [⟨⟨"", attr.name⟩, parts⟩] .closed (.between 0 _ []), []) :=
    Xml.readStartTag_eq_some_iff.mpr
      ⟨_, ⟨"", "r"⟩, _, .closed, rfl, rfl, by rw [all]; rfl, by rw [all]⟩
  have written := Xml.written?_of_readStartTag read nofun
  rw [← toList_tag] at written
  have parsed := Document.parse?_eq_some_iff.mpr ⟨_, _, written,
    addTokens_tag named.ne_xmlns expanded _ _ _, rfl, ⟨_, List.mem_singleton.mpr rfl, rfl⟩, rfl⟩
  exact ⟨_, _, parsed, rfl, rfl⟩

end Accepted

end Attribute

namespace Document

variable {document : Document} {source : String}

/-- The markup of an attribute can be read again just if its value has no character that does not
stand for itself between quotation marks. -/
theorem readsBack_iff {address : Address} {attr : Attribute}
    (parsed : parse? source = some document)
    (found : document.itemAt? address = some (.attr attr)) :
    attr.ReadsBack ↔ ∀ char ∈ attr.value.toList, Xml.IsVerbatim char := by
  have named := isNamed_of_itemAt? parsed found
  exact ⟨attr.isVerbatim_of_readsBack named, attr.readsBack_of_isVerbatim named⟩

/-- A number between single quotation marks can be read again between double ones. -/
theorem readsBack_iff_number :
    ∃ document, parse? "<item ref='1'/>" = some document ∧
      document.itemAt? [.child 0, .attr 0] = some (.attr ⟨"ref", "1"⟩) ∧
        Attribute.ReadsBack ⟨"ref", "1"⟩ := by
  have parsed : parse? "<item ref='1'/>" =
      some ⟨[.element "item" [⟨"ref", "1"⟩] [] "<item ref='1'/>"], "<item ref='1'/>"⟩ := rfl
  have found : itemAt? ⟨[.element "item" [⟨"ref", "1"⟩] [] "<item ref='1'/>"], "<item ref='1'/>"⟩
      [.child 0, .attr 0] = some (.attr ⟨"ref", "1"⟩) := rfl
  exact ⟨_, parsed, found, (readsBack_iff parsed found).mpr (forall_mem_of_all (by decide))⟩

/-- A quotation mark in the value would end it: `a="""` is no assignment. -/
theorem not_readsBack_quote :
    ∃ document, parse? "<r a='\"'/>" = some document ∧
      document.itemAt? [.child 0, .attr 0] = some (.attr ⟨"a", "\""⟩) ∧
        ¬Attribute.ReadsBack ⟨"a", "\""⟩ := by
  have parsed : parse? "<r a='\"'/>" =
      some ⟨[.element "r" [⟨"a", "\""⟩] [] "<r a='\"'/>"], "<r a='\"'/>"⟩ := rfl
  have unread : parse? ("<r " ++ Attribute.markup ⟨"a", "\""⟩ ++ "/>") = none := rfl
  refine ⟨_, parsed, rfl, ?_⟩
  rintro ⟨document, root, read, -⟩
  cases unread.symm.trans read

end Document

end XmlRecords
