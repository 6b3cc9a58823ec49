import XmlRecords.Proofs.Schema.NodeSets

/-! # Unions

The operator `|` is the union of node-sets, for expressions and for the contexts of selectors. One
outcome unites two others if it has nodes when both of these have, and then the nodes of both
(`Outcome.Unites`). Looking up a union from some nodes unites the lookups of its sides, looking up
an expression from a union of nodes unites the lookups from either part, and lookups that unite go
on to do so; hence a selector within a union unites those within its sides.
-/

namespace XmlRecords

namespace Address

variable {found others lefts rights : List Address}

/-- The nodes of two lists in document order, each once. -/
structure IsUnion (found lefts rights : List Address) : Prop where
  ascending : Ascending found
  mem_iff (node : Address) : node ∈ found ↔ node ∈ lefts ∨ node ∈ rights

theorem isUnion_inOrder (lefts rights : List Address) :
    IsUnion (inOrder (lefts ++ rights)) lefts rights :=
  ⟨ascending_inOrder _, fun _ => mem_inOrder.trans List.mem_append⟩

theorem IsUnion.eq (first : IsUnion found lefts rights) (second : IsUnion others lefts rights) :
    found = others :=
  first.ascending.eq_of_mem_iff second.ascending fun node =>
    (first.mem_iff node).trans (second.mem_iff node).symm

theorem inOrder_comm (lefts rights : List Address) :
    inOrder (lefts ++ rights) = inOrder (rights ++ lefts) :=
  inOrder_congr fun _ => by rw [List.mem_append, List.mem_append, or_comm]

theorem inOrder_assoc (first second third : List Address) :
    inOrder (inOrder (first ++ second) ++ third) = inOrder (first ++ inOrder (second ++ third)) :=
  inOrder_congr fun _ => by simp only [List.mem_append, mem_inOrder, or_assoc]

theorem Ascending.inOrder_self (ascending : Ascending found) : inOrder (found ++ found) = found :=
  (inOrder_congr fun _ => by rw [List.mem_append, or_self]).trans ascending.inOrder_eq

end Address

namespace Outcome

variable {ε : Type} {whole left right : Except ε (List Address)}

/-- The outcome has nodes if two others have, and then those of both. -/
def Unites (whole left right : Except ε (List Address)) : Prop :=
  ∀ found, whole = .ok found ↔
    ∃ lefts rights, left = .ok lefts ∧ right = .ok rights ∧ Address.IsUnion found lefts rights

theorem Unites.of_isUnion
    (together : (∃ found, whole = .ok found) ↔
      (∃ lefts, left = .ok lefts) ∧ ∃ rights, right = .ok rights)
    (union : ∀ {found lefts rights}, whole = .ok found → left = .ok lefts → right = .ok rights →
      Address.IsUnion found lefts rights) : Unites whole left right := by
  intro found
  constructor
  · intro here
    obtain ⟨⟨lefts, onLeft⟩, rights, onRight⟩ := together.mp ⟨found, here⟩
    exact ⟨lefts, rights, onLeft, onRight, union here onLeft onRight⟩
  · rintro ⟨lefts, rights, onLeft, onRight, isUnion⟩
    obtain ⟨other, here⟩ := together.mpr ⟨⟨lefts, onLeft⟩, rights, onRight⟩
    rw [here, (union here onLeft onRight).eq isUnion]

theorem Unites.ok_iff (unites : Unites whole left right) :
    (∃ found, whole = .ok found) ↔
      (∃ lefts, left = .ok lefts) ∧ ∃ rights, right = .ok rights := by
  constructor
  · rintro ⟨found, here⟩
    obtain ⟨lefts, rights, onLeft, onRight, _⟩ := (unites found).mp here
    exact ⟨⟨lefts, onLeft⟩, rights, onRight⟩
  · rintro ⟨⟨lefts, onLeft⟩, rights, onRight⟩
    exact ⟨_, (unites _).mpr ⟨lefts, rights, onLeft, onRight, Address.isUnion_inOrder _ _⟩⟩

theorem Unites.error_iff (unites : Unites whole left right) :
    (∃ cause, whole = .error cause) ↔
      (∃ cause, left = .error cause) ∨ ∃ cause, right = .error cause := by
  rw [eq_error_iff, eq_error_iff, eq_error_iff, ← not_and_or, not_iff_not]
  exact unites.ok_iff

/-- The nodes of an outcome that unites two others, where these have nodes. -/
theorem Unites.mem_iff (unites : Unites whole left right) {lefts rights : List Address}
    (onLeft : left = .ok lefts) (onRight : right = .ok rights) {node : Address} :
    (∃ found, whole = .ok found ∧ node ∈ found) ↔ node ∈ lefts ∨ node ∈ rights := by
  have union := Address.isUnion_inOrder lefts rights
  have here := (unites _).mpr ⟨lefts, rights, onLeft, onRight, union⟩
  rw [← union.mem_iff]
  constructor
  · rintro ⟨found, other, member⟩
    cases here.symm.trans other
    exact member
  · exact fun member => ⟨_, here, member⟩

/-- Outcomes that unite still do when all go on in a way that unites. -/
theorem Unites.bind {next : List Address → Except ε (List Address)}
    (unites : Unites whole left right)
    (onward : ∀ {found lefts rights}, Address.IsUnion found lefts rights →
      Unites (next found) (next lefts) (next rights)) :
    Unites (whole >>= next) (left >>= next) (right >>= next) := by
  intro found
  simp only [bind_eq_ok]
  constructor
  · rintro ⟨middles, here, there⟩
    obtain ⟨lefts, rights, onLeft, onRight, union⟩ := (unites middles).mp here
    obtain ⟨first, second, fromLeft, fromRight, both⟩ := (onward union found).mp there
    exact ⟨first, second, ⟨lefts, onLeft, fromLeft⟩, ⟨rights, onRight, fromRight⟩, both⟩
  · rintro ⟨first, second, ⟨lefts, onLeft, fromLeft⟩, ⟨rights, onRight, fromRight⟩, both⟩
    have union := Address.isUnion_inOrder lefts rights
    exact ⟨_, (unites _).mpr ⟨lefts, rights, onLeft, onRight, union⟩,
      (onward union found).mpr ⟨first, second, fromLeft, fromRight, both⟩⟩

end Outcome

namespace XPath.Expression

variable {document : Document} {left right : Expression}

theorem evaluate_union {focus : Focus} {lefts rights : List Address}
    (onLeft : left.evaluate document focus = .ok (.nodes lefts))
    (onRight : right.evaluate document focus = .ok (.nodes rights)) :
    (binary .union left right).evaluate document focus =
      .ok (.nodes (Address.inOrder (lefts ++ rights))) := by
  simp only [evaluate, onLeft, onRight]
  rfl

/-- A union selects nodes if both sides do, and then those of both. -/
theorem select_union (document : Document) (left right : Expression) (node root : Address) :
    Outcome.Unites ((binary .union left right).select document node root)
      (left.select document node root) (right.select document node root) := by
  refine Outcome.Unites.of_isUnion ?_ fun {found lefts rights} here onLeft onRight => ?_
  · simp only [select_eq_ok_iff]
    constructor
    · rintro ⟨found, evaluated⟩
      simp only [evaluate, Operator.decided?, Outcome.bind_eq_ok] at evaluated
      obtain ⟨leftValue, onLeft, rightValue, onRight, applied⟩ := evaluated
      cases leftValue <;> cases rightValue <;> cases applied
      exact ⟨⟨_, onLeft⟩, _, onRight⟩
    · rintro ⟨⟨lefts, onLeft⟩, rights, onRight⟩
      exact ⟨_, evaluate_union onLeft onRight⟩
  · rw [select_eq_ok_iff] at here onLeft onRight
    rw [evaluate_union onLeft onRight] at here
    cases here
    exact Address.isUnion_inOrder lefts rights

end XPath.Expression

namespace Selector

variable {document : Document} {nodes lefts rights : List Address}

/-- From some nodes a union finds what both its sides find. -/
theorem selectFrom_union (document : Document) (left right : XPath.Expression)
    (nodes : List Address) :
    Outcome.Unites (selectFrom (.binary .union left right) document nodes)
      (selectFrom left document nodes) (selectFrom right document nodes) := by
  have each := XPath.Expression.select_union document left right
  refine Outcome.Unites.of_isUnion ?_ fun {found lefts rights} here onLeft onRight =>
    ⟨ascending_of_lookup here, fun target => ?_⟩
  · simp only [selectFrom_ok_iff, (each _ []).ok_iff, forall_and]
  · rw [mem_of_selectFrom here, mem_of_selectFrom onLeft, mem_of_selectFrom onRight,
      ← exists_or]
    refine exists_congr fun node => ?_
    rw [← and_or_left]
    refine and_congr_right fun member => ?_
    obtain ⟨first, fromLeft⟩ := selectFrom_ok_iff.mp ⟨lefts, onLeft⟩ node member
    obtain ⟨second, fromRight⟩ := selectFrom_ok_iff.mp ⟨rights, onRight⟩ node member
    rw [(each node []).mem_iff fromLeft fromRight]
    simp only [fromLeft, fromRight, Except.ok.injEq, exists_eq_left']

/-- From a union of nodes an expression finds what it finds from both parts. -/
theorem selectFrom_isUnion (path : XPath.Expression) (union : Address.IsUnion nodes lefts rights) :
    Outcome.Unites (selectFrom path document nodes) (selectFrom path document lefts)
      (selectFrom path document rights) := by
  refine Outcome.Unites.of_isUnion ?_ fun {found first second} here fromLeft fromRight =>
    ⟨ascending_of_lookup here, fun node => ?_⟩
  · simp only [selectFrom_ok_iff, union.mem_iff, or_imp, forall_and]
  · rw [mem_of_selectFrom here, mem_of_selectFrom fromLeft, mem_of_selectFrom fromRight]
    simp only [union.mem_iff, or_and_right, exists_or]

/-- A selector within a union finds what those within both its sides find. -/
theorem select_union (document : Document) (path left right : XPath.Expression) (isArray : Bool)
    (nodes : List Address) :
    Outcome.Unites (select ⟨path, some (.binary .union left right), isArray⟩ document nodes)
      (select ⟨path, some left, isArray⟩ document nodes)
      (select ⟨path, some right, isArray⟩ document nodes) :=
  (selectFrom_union document left right nodes).bind fun union => selectFrom_isUnion path union

open XPath in
/-- Union is set union at both levels. Of expressions that evaluate to node-sets at a focus, the
union evaluates to the nodes of both sides, each once and in document order, so that `|` is
commutative, associative and idempotent. A selector whose context is a union finds, from any list of
nodes, what the selectors with either side as context find, and fails if one of these fails. -/
theorem union_exact (document : Document) :
    (∀ (first second third : Expression) (focus : Focus) firsts seconds thirds,
      first.evaluate document focus = .ok (.nodes firsts) →
      second.evaluate document focus = .ok (.nodes seconds) →
      third.evaluate document focus = .ok (.nodes thirds) →
        (∃ found,
          (Expression.binary .union first second).evaluate document focus = .ok (.nodes found) ∧
          Address.IsUnion found firsts seconds ∧ found.Nodup) ∧
        (Expression.binary .union first second).evaluate document focus =
          (Expression.binary .union second first).evaluate document focus ∧
        (Expression.binary .union (.binary .union first second) third).evaluate document focus =
          (Expression.binary .union first (.binary .union second third)).evaluate document focus ∧
        (Expression.binary .union first first).evaluate document focus =
          first.evaluate document focus) ∧
    ∀ (path left right : Expression) (isArray : Bool) (nodes : List Address),
      let within (context : Expression) : Selector := ⟨path, some context, isArray⟩
      (∀ found, (within (.binary .union left right)).select document nodes = .ok found ↔
        ∃ lefts rights, (within left).select document nodes = .ok lefts ∧
          (within right).select document nodes = .ok rights ∧
          Address.IsUnion found lefts rights) ∧
      ((∃ cause, (within (.binary .union left right)).select document nodes = .error cause) ↔
        (∃ cause, (within left).select document nodes = .error cause) ∨
          ∃ cause, (within right).select document nodes = .error cause) := by
  refine ⟨?_, fun path left right isArray nodes =>
    ⟨select_union document path left right isArray nodes,
      (select_union document path left right isArray nodes).error_iff⟩⟩
  intro first second third focus firsts seconds thirds onFirst onSecond onThird
  have union := Expression.evaluate_union onFirst onSecond
  have single := (Expression.ascending_of_evaluate onFirst).inOrder_self
  refine ⟨⟨_, union, Address.isUnion_inOrder firsts seconds,
    (Address.ascending_inOrder _).nodup⟩, ?_, ?_, ?_⟩
  · rw [union, Expression.evaluate_union onSecond onFirst, Address.inOrder_comm]
  · rw [Expression.evaluate_union union onThird,
      Expression.evaluate_union onFirst (Expression.evaluate_union onSecond onThird),
      Address.inOrder_assoc]
  · rw [Expression.evaluate_union onFirst onFirst, single, onFirst]

/-- The paths `*`, `@*` and `.` from an element, whose order in the document is another one, and the
path `..` within `* | @*` from a list with the same element twice. -/
theorem union_exact_overlap :
    let document : Document :=
      ⟨[.element "a" [⟨"id", "1"⟩] [.element "b" [] [] "", .element "c" [] [] ""] ""], ""⟩
    let children : XPath.Expression := .path false [.mk .child .any []]
    let attributes : XPath.Expression := .path false [.mk .attr .any []]
    let here : XPath.Expression := .path false [.here]
    let parent : XPath.Expression := .path false [.up]
    let focus : XPath.Focus := ⟨[.child 0], [], 1, 1⟩
    (XPath.Expression.binary .union children attributes).evaluate document focus =
      (XPath.Expression.binary .union attributes children).evaluate document focus ∧
    (XPath.Expression.binary .union (.binary .union children attributes) here).evaluate document
        focus =
      (XPath.Expression.binary .union children (.binary .union attributes here)).evaluate document
        focus ∧
    (∃ found, (XPath.Expression.binary .union children attributes).evaluate document focus =
      .ok (.nodes found) ∧
      Address.IsUnion found [[.child 0, .child 0], [.child 0, .child 1]] [[.child 0, .attr 0]]) ∧
    select ⟨parent, some (.binary .union children attributes), true⟩ document
      [[.child 0], [.child 0]] = .ok [[.child 0]] := by
  intro document children attributes here parent focus
  obtain ⟨algebra, lookup⟩ := union_exact document
  obtain ⟨⟨found, union, isUnion, _⟩, comm, assoc, _⟩ :=
    algebra children attributes here focus [[.child 0, .child 0], [.child 0, .child 1]]
      [[.child 0, .attr 0]] [[.child 0]] rfl rfl rfl
  refine ⟨comm, assoc, ⟨found, union, isUnion⟩, ?_⟩
  refine ((lookup parent children attributes true [[.child 0], [.child 0]]).1 [[.child 0]]).mpr
    ⟨[[.child 0]], [[.child 0]], rfl, rfl, Address.ascending_singleton _, fun node => ?_⟩
  rw [or_self]

end Selector

end XmlRecords
