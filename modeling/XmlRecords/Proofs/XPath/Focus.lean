import XmlRecords.Proofs.XPath.Typing

/-! # What an expression sees of its focus

Of the position and the size of a focus only the functions `position` and `last` tell. An expression
that calls them in the predicates of its paths alone has the same value at all positions of a node
(`Expression.evaluate_congr_position`), because every predicate is given a focus of its own. Such an
expression, if it is no number, keeps the same nodes wherever it stands among predicates, though
each predicate renumbers the nodes for those behind it.
-/

namespace XmlRecords

namespace XPath

/-- The answer of the function is the position or the size of the focus. -/
def Function.seesPosition : Function → Bool
  | position | last => Bool.true
  | _ => Bool.false

mutual

/-- The functions `position` and `last` are called in predicates only, and not at the focus of the
expression itself. -/
def Expression.isPositionFree : Expression → Bool
  | .literal _ => true
  | .number _ => true
  | .path _ _ => true
  | .call name arguments =>
      !(Function.ofName? name).any Function.seesPosition && Expression.arePositionFree arguments
  | .binary _ left right => left.isPositionFree && right.isPositionFree
  | .negate operand => operand.isPositionFree

def Expression.arePositionFree : List Expression → Bool
  | [] => true
  | expression :: expressions =>
      expression.isPositionFree && Expression.arePositionFree expressions

end

section Focus

variable {document : Document} {first second : Focus}

theorem Function.apply_congr_position {function : Function}
    (blind : function.seesPosition = Bool.false) (node : first.node = second.node)
    (arguments : List Value) :
    function.apply document first arguments = function.apply document second arguments := by
  have only : argumentOrNode first arguments = argumentOrNode second arguments := by
    cases arguments with
    | nil => rw [argumentOrNode, argumentOrNode, node]
    | cons argument arguments => rfl
  cases function with
  | position => cases blind
  | last => cases blind
  | _ => simp only [apply, only]

theorem callFunction_congr_position {name : String}
    (blind : (Function.ofName? name).any Function.seesPosition = false)
    (node : first.node = second.node) (arguments : List Value) :
    callFunction name document first arguments = callFunction name document second arguments := by
  unfold callFunction
  cases known : Function.ofName? name with
  | none => rfl
  | some function =>
      rw [known, Option.any_some] at blind
      simp only [Function.apply_congr_position blind node]

mutual

/-- An expression that does not look at its position has the same outcome at every position of a
node. -/
theorem Expression.evaluate_congr_position (node : first.node = second.node)
    (root : first.root = second.root) :
    (expression : Expression) → expression.isPositionFree = true →
      expression.evaluate document first = expression.evaluate document second
  | .literal _, _ => rfl
  | .number _, _ => rfl
  | .path absolute steps, _ => by simp only [Expression.evaluate, node, root]
  | .call name arguments, free => by
      obtain ⟨blind, argumentsFree⟩ := Bool.and_eq_true_iff.mp free
      rw [Bool.not_eq_true'] at blind
      simp only [Expression.evaluate, callFunction_congr_position blind node,
        Expression.evaluateAll_congr_position node root arguments argumentsFree]
  | .binary operator left right, free => by
      obtain ⟨leftFree, rightFree⟩ := Bool.and_eq_true_iff.mp free
      simp only [Expression.evaluate, Expression.evaluate_congr_position node root left leftFree,
        Expression.evaluate_congr_position node root right rightFree]
  | .negate operand, free => by
      simp only [Expression.evaluate, Expression.evaluate_congr_position node root operand free]

theorem Expression.evaluateAll_congr_position (node : first.node = second.node)
    (root : first.root = second.root) :
    (expressions : List Expression) → Expression.arePositionFree expressions = true →
      Expression.evaluateAll document first expressions =
        Expression.evaluateAll document second expressions
  | [], _ => rfl
  | expression :: expressions, free => by
      obtain ⟨here, there⟩ := Bool.and_eq_true_iff.mp free
      have first := Expression.evaluate_congr_position node root expression here
      simp only [Expression.evaluateAll, first,
        Expression.evaluateAll_congr_position node root expressions there]

end

end Focus

section Predicates

/-- Of numbered members of a list those are collected that have a property. -/
theorem collect_zipIdx_eq_filter {α ε : Type} {find : α × Nat → Except ε (List α)}
    (holds : α → Bool) {members : List α} {start : Nat}
    (each : ∀ member ∈ members, ∀ index,
      find (member, index) = .ok (if holds member then [member] else [])) :
    collect find (members.zipIdx start) = .ok (members.filter holds) := by
  rw [collect_eq_filter (holds ∘ Prod.fst)]
  · rw [← List.filter_map, List.zipIdx_map_fst]
  · exact fun entry member => each entry.1 (List.fst_mem_of_mem_zipIdx member) entry.2

variable {document : Document} {root : Address}

/-- The predicates of a list can be applied in two goes. -/
theorem Expression.keepAll_append {first second : List Expression} {nodes : List Address} :
    keepAll document root (first ++ second) nodes =
      keepAll document root first nodes >>= keepAll document root second := by
  induction first generalizing nodes with
  | nil => rfl
  | cons predicate predicates ih =>
      simp only [List.cons_append, keepAll, ih, bind_assoc]

/-- Only a number keeps a node for its position. -/
theorem Value.keeps_of_type_ne {value : Value} (other : value.type ≠ .number) (position : Nat) :
    value.keeps position = value.toBoolean := by
  cases value with
  | number real => exact absurd rfl other
  | _ => rfl

namespace Expression

variable {predicate other : Expression} {node : Address} {nodes : List Address}

variable (document root) in
/-- The expression has a value at some position of the node. -/
def HasValueAt (expression : Expression) (node : Address) : Prop :=
  ∃ position size value, expression.evaluate document ⟨node, root, position, size⟩ = .ok value

variable (document root) in
/-- The truth of the value of an expression at the first position of a node. -/
def isTrueAt (expression : Expression) (node : Address) : Bool :=
  match expression.evaluate document ⟨node, root, 1, 1⟩ with
  | .ok value => value.toBoolean
  | .error _ => false

variable (document root) in
/-- As a predicate, the expression looks at each of these nodes by itself: it has a value that is
neither for one of the positions, nor different at another one. -/
structure TestsEach (predicate : Expression) (nodes : List Address) : Prop where
  free : predicate.isPositionFree = true
  notNumber : predicate.type? ≠ some .number
  valued : ∀ node ∈ nodes, predicate.HasValueAt document root node

namespace TestsEach

theorem filter (tests : predicate.TestsEach document root nodes) (holds : Address → Bool) :
    predicate.TestsEach document root (nodes.filter holds) :=
  ⟨tests.free, tests.notNumber, fun node member =>
    tests.valued node (List.mem_of_mem_filter member)⟩

/-- At whatever position, the value keeps the node exactly if it is true at the first one. -/
theorem exists_value (tests : predicate.TestsEach document root nodes) (member : node ∈ nodes)
    (position size : Nat) :
    ∃ value, predicate.evaluate document ⟨node, root, position, size⟩ = .ok value ∧
      value.toBoolean = predicate.isTrueAt document root node ∧
      ∀ index, value.keeps index = predicate.isTrueAt document root node := by
  obtain ⟨_, _, value, evaluated⟩ := tests.valued node member
  have atPosition : ∀ position size,
      predicate.evaluate document ⟨node, root, position, size⟩ = .ok value := by
    intro position size
    rw [← evaluated]
    apply evaluate_congr_position _ _ predicate tests.free
    · rfl
    · rfl
  have truth : value.toBoolean = predicate.isTrueAt document root node := by
    rw [isTrueAt, atPosition]
  have other : value.type ≠ .number := fun number =>
    tests.notNumber ((type?_of_evaluate evaluated).trans (congrArg some number))
  exact ⟨value, atPosition position size, truth, fun index =>
    (Value.keeps_of_type_ne other index).trans truth⟩

/-- Such a predicate keeps the nodes at which it is true. -/
theorem keepAll_cons (tests : predicate.TestsEach document root nodes) (others : List Expression) :
    keepAll document root (predicate :: others) nodes =
      keepAll document root others (nodes.filter (predicate.isTrueAt document root)) := by
  rw [keepAll, collect_zipIdx_eq_filter (predicate.isTrueAt document root)]
  · rfl
  · intro node member index
    obtain ⟨value, evaluated, _, keeps⟩ := tests.exists_value member (index + 1) nodes.length
    dsimp only
    rw [evaluated, ← keeps (index + 1)]
    rfl

/-- Of two such predicates the conjunction is true where both are. -/
theorem isTrueAt_and (tests : predicate.TestsEach document root nodes)
    (otherTests : other.TestsEach document root nodes) (member : node ∈ nodes) :
    HasValueAt document root (.binary .and predicate other) node ∧
      isTrueAt document root (.binary .and predicate other) node =
        (predicate.isTrueAt document root node && other.isTrueAt document root node) := by
  obtain ⟨left, leftEvaluated, leftTruth, _⟩ := tests.exists_value member 1 1
  obtain ⟨right, rightEvaluated, rightTruth, _⟩ := otherTests.exists_value member 1 1
  have whole : (binary .and predicate other).evaluate document ⟨node, root, 1, 1⟩ =
      .ok (.boolean (left.toBoolean && right.toBoolean)) := by
    rw [evaluate, leftEvaluated]
    cases holds : left.toBoolean with
    | false => simp only [Operator.decided?, bind, Except.bind, holds]; rfl
    | true =>
        simp only [Operator.decided?, bind, Except.bind, holds, ↓reduceIte, rightEvaluated,
          Operator.apply]
  refine ⟨⟨1, 1, _, whole⟩, ?_⟩
  rw [isTrueAt, whole, ← leftTruth, ← rightTruth]
  rfl

theorem and (tests : predicate.TestsEach document root nodes)
    (otherTests : other.TestsEach document root nodes) :
    TestsEach document root (.binary .and predicate other) nodes :=
  ⟨Bool.and_eq_true_iff.mpr ⟨tests.free, otherTests.free⟩, nofun, fun _ member =>
    (tests.isTrueAt_and otherTests member).1⟩

/-- Two such predicates can be exchanged, or joined to one. -/
theorem keepAll_cons_cons (tests : predicate.TestsEach document root nodes)
    (otherTests : other.TestsEach document root nodes) (behind : List Expression) :
    keepAll document root (predicate :: other :: behind) nodes =
        keepAll document root (other :: predicate :: behind) nodes ∧
      keepAll document root (predicate :: other :: behind) nodes =
        keepAll document root (.binary .and predicate other :: behind) nodes := by
  have both : nodes.filter ((binary .and predicate other).isTrueAt document root) =
      nodes.filter fun node =>
        predicate.isTrueAt document root node && other.isTrueAt document root node :=
    List.filter_congr fun node member => (tests.isTrueAt_and otherTests member).2
  rw [tests.keepAll_cons, (otherTests.filter _).keepAll_cons, otherTests.keepAll_cons,
    (tests.filter _).keepAll_cons, (tests.and otherTests).keepAll_cons, both, List.filter_filter,
    List.filter_filter]
  simp only [Bool.and_comm, and_self]

end TestsEach

end Expression

end Predicates

namespace Expression

/-- The focus is observed through `position` and `last` only. An expression that does not call them
at its own focus has the same outcome at all foci with the same node and root. So two adjacent
predicates of this kind that are not numbers, and have values at all the nodes that come to them,
can be exchanged or joined by `and`: the step leads to the same nodes. -/
theorem focus_observed_by_position (document : Document) :
    (∀ expression : Expression, expression.isPositionFree = true →
      ∀ first second : Focus, first.node = second.node → first.root = second.root →
        expression.evaluate document first = expression.evaluate document second) ∧
    ∀ (axis : Axis) (test : NodeTest) (before behind : List Expression) (left right : Expression)
      (root node : Address),
      left.isPositionFree = true → right.isPositionFree = true →
      left.type? ≠ some .number → right.type? ≠ some .number →
      (∀ candidates, Step.nodesFrom document root (.mk axis test before) node = .ok candidates →
        ∀ candidate ∈ candidates, left.HasValueAt document root candidate ∧
          right.HasValueAt document root candidate) →
      Step.nodesFrom document root (.mk axis test (before ++ left :: right :: behind)) node =
          Step.nodesFrom document root (.mk axis test (before ++ right :: left :: behind)) node ∧
        Step.nodesFrom document root (.mk axis test (before ++ left :: right :: behind)) node =
          Step.nodesFrom document root (.mk axis test (before ++ .binary .and left right :: behind))
            node := by
  constructor
  · intro expression free first second node root
    exact evaluate_congr_position node root expression free
  · intro axis test before behind left right root node leftFree rightFree leftType rightType valued
    simp only [Step.nodesFrom] at valued ⊢
    simp only [keepAll_append]
    cases kept : keepAll document root before
        ((axis.nodes document node).filter (test.admits axis document)) with
    | error cause => exact ⟨rfl, rfl⟩
    | ok candidates =>
        have each := valued candidates kept
        have leftTests : left.TestsEach document root candidates :=
          ⟨leftFree, leftType, fun candidate member => (each candidate member).1⟩
        have rightTests : right.TestsEach document root candidates :=
          ⟨rightFree, rightType, fun candidate member => (each candidate member).2⟩
        exact leftTests.keepAll_cons_cons rightTests behind

/-- The paths `child::*[@id][count(a[last()]) = 1]`, with the predicates in either order and joined
by `and`, in a document with three elements. -/
theorem focus_observed_by_position_count :
    let document : Document :=
      ⟨[.element "e" [⟨"id", "1"⟩] [.element "a" [] [] "", .element "a" [] [] ""] "",
        .element "e" [⟨"id", "2"⟩] [] "", .element "e" [] [.element "a" [] [] ""] ""], ""⟩
    let identified : Expression := .path false [.mk .attr (.name "id") []]
    let count : Expression :=
      .call "count" [.path false [.mk .child (.name "a") [.call "last" []]]]
    let single : Expression := .binary (.compare .equal) count (.number (Binary64.ofNat 1))
    let step (predicates : List Expression) : Step := .mk .child .any predicates
    identified.isPositionFree = true ∧ single.isPositionFree = true ∧
      (identified.type? ≠ some .number ∧ single.type? ≠ some .number) ∧
      (∀ candidates, (step []).nodesFrom document [] [] = .ok candidates →
        ∀ candidate ∈ candidates, identified.HasValueAt document [] candidate ∧
          single.HasValueAt document [] candidate) ∧
      single.evaluate document ⟨[.child 0], [], 1, 1⟩ =
        single.evaluate document ⟨[.child 0], [], 2, 3⟩ ∧
      (step [identified, single]).nodesFrom document [] [] = .ok [[.child 0]] ∧
      (step [single, identified]).nodesFrom document [] [] = .ok [[.child 0]] ∧
      (step [.binary .and identified single]).nodesFrom document [] [] = .ok [[.child 0]] := by
  intro document identified count single step
  have free : identified.isPositionFree = true ∧ single.isPositionFree = true :=
    ⟨rfl, by decide⟩
  have types : identified.type? ≠ some .number ∧ single.type? ≠ some .number :=
    ⟨by decide, by decide⟩
  have valued : ∀ candidates, (step []).nodesFrom document [] [] = .ok candidates →
      ∀ candidate ∈ candidates, identified.HasValueAt document [] candidate ∧
        single.HasValueAt document [] candidate := by
    intro candidates _ candidate _
    obtain ⟨_, identifies⟩ := evaluate_ok document ⟨candidate, [], 1, 1⟩ identified (by decide)
    obtain ⟨_, counts⟩ := evaluate_ok document ⟨candidate, [], 1, 1⟩ single (by decide)
    exact ⟨⟨1, 1, _, identifies⟩, ⟨1, 1, _, counts⟩⟩
  have kept : (step [identified, single]).nodesFrom document [] [] = .ok [[.child 0]] := by
    decide +kernel
  obtain ⟨same, reordered⟩ := focus_observed_by_position document
  obtain ⟨exchanged, joined⟩ :=
    reordered .child .any [] [] identified single [] [] free.1 free.2 types.1 types.2 valued
  exact ⟨free.1, free.2, types, valued, same single free.2 _ _ rfl rfl, kept,
    exchanged.symm.trans kept, joined.symm.trans kept⟩

end Expression

end XPath

end XmlRecords
