import XmlRecords.Proofs.XPath.Abbreviation
import XmlRecords.Proofs.XPath.Axes
import XmlRecords.Proofs.XPath.Walking
import XmlRecords.Schema.Location

/-! # Derived expressions

The expression of a field that gives none is derived from names: of the field, of a tag, or of the
singular of the field. It is parsed whenever these are names, and it selects what they name. The
singular of a name is a name, as endings are replaced by letters and an `s` that is dropped never
makes up the whole of it.
-/

namespace XmlRecords

open XPath

section Singulars

theorem isName_of_startsName {text : List Char} (starts : StartsName text)
    (inside : ∀ char ∈ text, isNameChar char) : isName text := by
  obtain ⟨first, others, rfl, start⟩ := starts
  refine Bool.and_eq_true_iff.mpr ⟨start, List.all_eq_true.mpr fun char member => ?_⟩
  exact inside char (List.mem_cons_of_mem first member)

namespace Text

/-- An inflected form of a word: it consists of the characters of names if the word does, and begins
a name if the word does. -/
structure Inflects (word form : List Char) : Prop where
  inside : (∀ char ∈ word, isNameChar char) → ∀ char ∈ form, isNameChar char
  starts : StartsName word → StartsName form

theorem Inflects.refl (word : List Char) : Inflects word word :=
  ⟨id, id⟩

theorem Inflects.of_isName {form : List Char} (named : isName form) (word : List Char) :
    Inflects word form :=
  ⟨fun _ => isNameChar_of_isName named, fun _ => startsName_of_isName named⟩

/-- An ending is replaced, behind a beginning of the word that may be empty. -/
theorem Inflects.take {ending : List Char} (named : isName ending) (word : List Char)
    (count : Nat) : Inflects word (word.take count ++ ending) := by
  constructor
  · intro inside char member
    rcases List.mem_append.mp member with front | behind
    · exact inside char (List.mem_of_mem_take front)
    · exact isNameChar_of_isName named char behind
  · rintro ⟨first, others, rfl, start⟩
    cases count with
    | zero => exact startsName_of_isName named
    | succ count => exact ⟨first, others.take count ++ ending, rfl, start⟩

/-- Only words of several letters lose their last one, so that a letter to begin with is left. -/
theorem inflects_withoutFinalS (word : List Char) : Inflects word (withoutFinalS word) := by
  unfold withoutFinalS
  split
  · rename_i long
    refine ⟨fun inside char member => inside char (List.mem_of_mem_dropLast member), ?_⟩
    rintro ⟨first, others, rfl, start⟩
    simp only [Bool.and_eq_true, decide_eq_true_eq, List.length_cons] at long
    cases others with
    | nil => exact absurd long.2 (by decide)
    | cons second others => exact ⟨first, (second :: others).dropLast, rfl, start⟩
  · exact .refl word

/-- What is put in place of an ending is a name by itself. -/
theorem isName_endings : ∀ rule ∈ endings, isName rule.2.toList = true := by
  decide +kernel

theorem isName_irregular : ∀ rule ∈ irregular, isName rule.2.toList = true := by
  decide +kernel

/-- An ending is taken off, and another one may be put there. -/
theorem inflects_singularByEnding (word : List Char) :
    Inflects word (singularByEnding word) := by
  unfold singularByEnding
  dsimp only
  split
  · rename_i plural singular found
    exact .take (isName_endings _ (List.mem_of_find?_eq_some found)) word _
  · split
    · exact .refl word
    · exact inflects_withoutFinalS word

/-- An irregular singular comes from the table, whatever the word. -/
theorem inflects_singularWord (word : List Char) : Inflects word (singularWord word) := by
  unfold singularWord
  dsimp only
  split
  · exact .refl word
  · split
    · rename_i plural singular found
      exact .of_isName (isName_irregular _ (List.mem_of_find?_eq_some found)) word
    · exact inflects_singularByEnding word

/-- A name is cut into its last word and all in front of it. -/
theorem splitLastWord_append (name : List Char) :
    (splitLastWord name).1 ++ (splitLastWord name).2 = name := by
  have parts := append_span (fun char => char != '_') name.reverse
  rw [splitLastWord]
  dsimp only
  rw [← List.reverse_append, parts, List.reverse_reverse]

/-- The singular of a name is a name. -/
theorem isName_singular {name : String} (named : isName name.toList) :
    isName (singular name).toList := by
  have parts := splitLastWord_append name.toList
  have inside := isNameChar_of_isName named
  have starts := startsName_of_isName named
  unfold singular
  dsimp only
  rw [String.toList_ofList]
  generalize splitLastWord name.toList = pair at parts ⊢
  obtain ⟨front, last⟩ := pair
  have inflects := inflects_singularWord last
  rw [← parts] at inside starts
  refine isName_of_startsName ?_ fun char member => ?_
  · cases front with
    | nil => exact inflects.starts starts
    | cons first others =>
        obtain ⟨_, _, same, start⟩ := starts
        obtain ⟨rfl, -⟩ := List.cons.inj same
        exact ⟨first, others ++ singularWord last, rfl, start⟩
  · rcases List.mem_append.mp member with inFront | inLast
    · exact inside char (List.mem_append_left last inFront)
    · exact inflects.inside (fun char member => inside char (List.mem_append_right front member))
        char inLast

end Text

end Singulars

section Steps

variable {document : Document} {node root : Address}

/-- From the node itself a step selects the nodes on its axis that pass its test. -/
theorem select_here_step (axis : Axis) (test : NodeTest) :
    (Expression.path false [.here, .mk axis test []]).select document node root =
      .ok (Address.inOrder ((axis.nodes document node).filter (test.admits axis document))) := by
  have walked : (Expression.path false [.here, .mk axis test []]).select document node root =
      .ok (Address.inOrder
        ((axis.nodes document node).filter (test.admits axis document) ++ [])) := rfl
  rw [walked, List.append_nil]

/-- A step from the node itself, in any way that it can be written. -/
theorem parse_here_step (form : StepForm) {text : String} (written : form.text = text.toList) :
    Expression.parse ("./" ++ text) = .ok (.path false [.here, form.step]) := by
  have path : (PathForm.relative .here [⟨false, form⟩]).path = .path false [.here, form.step] := rfl
  have whole : (PathForm.relative .here [⟨false, form⟩]).print = "./" ++ text := by
    rw [← String.toList_inj, PathForm.print, String.toList_ofList, String.toList_append, ← written]
    change '.' :: '/' :: (form.text ++ []) = _
    rw [List.append_nil]
    rfl
  rw [← whole, ← path]
  exact PathForm.parse_eq _

/-- The derived path of a child is what it looks like. -/
theorem parse_child {name : String} (named : isName name.toList) :
    Expression.parse ("./" ++ name) = .ok (.path false [.here, .mk .child (.name name) []]) :=
  parse_here_step (.child (.plain (.name name) named) []) (List.append_nil name.toList)

theorem parse_attribute {name : String} (named : isName name.toList) :
    Expression.parse ("./@" ++ name) = .ok (.path false [.here, .mk .attr (.name name) []]) := by
  have parsed := parse_here_step (.attr (.plain (.name name) named) [])
    (show '@' :: name.toList ++ [] = ("@" ++ name).toList by
      rw [List.append_nil, String.toList_append]
      rfl)
  have whole : "./@" ++ name = "./" ++ ("@" ++ name) := by
    rw [← String.append_assoc]
    rfl
  rw [whole]
  exact parsed

end Steps

/-- A tag that is given is a name. -/
def Tag.isNamed : Tag → Bool
  | ownName => true
  | named name => isName name.toList

namespace Location

/-- What a field at a location is to be found at, where its expression is derived: attributes with a
tag if there is one for attributes, or the node itself, or elements with a tag. -/
def Finds (location : Location) (field : String) (document : Document) (node other : Address) :
    Prop :=
  match location.attr with
  | some tag =>
      document.IsAttribute node other ∧
        document.nameAt? other = some (location.tagName field tag)
  | none =>
      if location.isSelf then
        other = node
      else
        document.IsChild node other ∧ document.kindAt? other = some .element ∧
          document.nameAt? other = some (location.tagName field (location.element.getD .ownName))

/-- The name that is looked for is a name in all cases: the one of the tag, that of the field, or
its singular. -/
theorem isName_tagName (location : Location) {field : String} (fieldNamed : isName field.toList)
    {tag : Tag} (named : tag.isNamed) : isName (location.tagName field tag).toList := by
  cases tag with
  | named name => exact named
  | ownName =>
      rw [tagName]
      split
      · exact Text.isName_singular fieldNamed
      · exact fieldNamed

/-- The tag of elements is a name if the one that is given is. -/
theorem isNamed_getD {tag : Option Tag} (named : tag.all Tag.isNamed) :
    (tag.getD .ownName).isNamed := by
  cases tag with
  | none => rfl
  | some tag => exact named

variable {document : Document} {node : Address}

/-- By name a step finds the attributes of a node with this name, in document order. -/
theorem attributes_named (name : String) :
    Address.Ascending ((document.attributesOf node).filter
        ((NodeTest.name name).admits .attr document)) ∧
      ∀ other, other ∈ (document.attributesOf node).filter
          ((NodeTest.name name).admits .attr document) ↔
        document.IsAttribute node other ∧ document.nameAt? other = some name := by
  refine ⟨(ascending_attributesOf document node).filter _, fun other => ?_⟩
  rw [List.mem_filter, mem_attributesOf]
  refine and_congr_right fun isAttr => ?_
  simp only [NodeTest.admits, if_true, isAttr.2, decide_true, Bool.true_and, decide_eq_true_eq]

/-- The children that the path selects are the elements of that name, in order. -/
theorem children_named (name : String) :
    Address.Ascending ((document.childrenOf node).filter
        ((NodeTest.name name).admits .child document)) ∧
      ∀ other, other ∈ (document.childrenOf node).filter
          ((NodeTest.name name).admits .child document) ↔
        document.IsChild node other ∧ document.kindAt? other = some .element ∧
          document.nameAt? other = some name := by
  refine ⟨(ascending_childrenOf document node).filter _, fun other => ?_⟩
  rw [List.mem_filter, mem_childrenOf]
  refine and_congr_right fun _ => ?_
  simp only [NodeTest.admits, reduceCtorEq, if_false, Bool.and_eq_true, decide_eq_true_eq]

/-- A derived expression is parsed, and selects what the location is to find, in document order. The
names that it is derived from stay names where they become singulars. -/
theorem derived_path_finds (location : Location) (field : String) (derived : location.xpath = none)
    (fieldNamed : isName field.toList = true)
    (elementNamed : location.element.all Tag.isNamed = true)
    (attrNamed : location.attr.all Tag.isNamed = true) :
    isName (Text.singular field).toList = true ∧
      ∃ expression, Expression.parse (location.path field) = .ok expression ∧
        ∀ document node root, ∃ found, expression.select document node root = .ok found ∧
          Address.Ascending found ∧
          ∀ other, other ∈ found ↔ location.Finds field document node other := by
  refine ⟨Text.isName_singular fieldNamed, ?_⟩
  unfold path Finds
  rw [derived]
  cases attr : location.attr with
  | some tag =>
      rw [attr] at attrNamed
      have named := location.isName_tagName fieldNamed attrNamed
      refine ⟨_, parse_attribute named, fun document node root => ?_⟩
      obtain ⟨ascending, members⟩ := attributes_named (location.tagName field tag)
      exact ⟨_, select_here_step .attr _, ascending.inOrder_eq.symm ▸ ⟨ascending, members⟩⟩
  | none =>
      by_cases self : location.isSelf
      · simp only [self, if_true]
        refine ⟨_, PathForm.parse_eq (.relative .here []), fun document node root => ?_⟩
        exact ⟨[node], rfl, List.pairwise_singleton _ node, fun _ => List.mem_singleton⟩
      · simp only [self, Bool.false_eq_true, if_false]
        have named := location.isName_tagName fieldNamed (isNamed_getD elementNamed)
        refine ⟨_, parse_child named, fun document node root => ?_⟩
        obtain ⟨ascending, members⟩ := children_named (location.tagName field _)
        exact ⟨_, select_here_step .child _, ascending.inOrder_eq.symm ▸ ⟨ascending, members⟩⟩

/-- A list of elements whose singular is the name of a node type. -/
theorem derived_path_finds_texts :
    let location : Location := ⟨none, none, none, false, true, none⟩
    let document : Document :=
      ⟨[.element "a" [⟨"text", ""⟩] [.element "text" [] [] "", .text "t" "",
        .element "texts" [] [] "", .element "text" [] [] ""] ""], ""⟩
    location.path "texts" = "./text" ∧ isName "texts".toList = true ∧
      ∃ expression, Expression.parse (location.path "texts") = .ok expression ∧
        expression.select document [.child 0] [] =
          .ok [[.child 0, .child 0], [.child 0, .child 3]] ∧
        ∀ other, other ∈ [[Place.child 0, Place.child 0], [Place.child 0, Place.child 3]] ↔
          location.Finds "texts" document [.child 0] other := by
  intro location document
  have path : location.path "texts" = "./" ++ "text" := by decide +kernel
  have given : Expression.parse (location.path "texts") =
      .ok (.path false [.here, .mk .child (.name "text") []]) :=
    path ▸ parse_child (by decide +kernel)
  have nodes : (Expression.path false [.here, .mk .child (.name "text") []]).select document
      [.child 0] [] = .ok [[.child 0, .child 0], [.child 0, .child 3]] := rfl
  obtain ⟨-, expression, parsed, selects⟩ :=
    derived_path_finds location "texts" rfl (by decide +kernel) rfl rfl
  obtain ⟨found, selected, -, members⟩ := selects document [.child 0] []
  cases given.symm.trans parsed
  cases nodes.symm.trans selected
  exact ⟨path, by decide +kernel, _, given, nodes, members⟩

end Location

end XmlRecords
