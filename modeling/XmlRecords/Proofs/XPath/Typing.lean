import XmlRecords.Proofs.Outcome

/-! # Static types of expressions

An expression has a type that can be read off it without a document: from its operator, or from the
function that it calls. Every value of an expression is of its type
(`Expression.type?_of_evaluate`), and an expression that is well typed in all its parts always has a
value (`Expression.evaluate_ok`), so that it selects nodes exactly if its type is that of node-sets.
-/

namespace XmlRecords

namespace XPath

inductive ValueType where
  | nodes
  | string
  | number
  | boolean
deriving DecidableEq

def Value.type : Value → ValueType
  | .nodes _ => .nodes
  | .string _ => .string
  | .number _ => .number
  | .boolean _ => .boolean

namespace Function

/-- The type of what a function answers. -/
def result : Function → ValueType
  | position | last | count | stringLength | number => .number
  | name | localName | string | concat | normalizeSpace => .string
  | contains | startsWith | boolean | not | true | false => .boolean

/-- The arguments of the function have to be node-sets. -/
def takesNodes : Function → Bool
  | count | name | localName => Bool.true
  | _ => Bool.false

end Function

/-- The type of what an operator gives. -/
def Operator.result : Operator → ValueType
  | .or | .and | .compare _ => .boolean
  | .plus | .minus => .number
  | .union => .nodes

namespace Expression

/-- The type of an expression; none of the call of an unknown function. -/
def type? : Expression → Option ValueType
  | .literal _ => some .string
  | .number _ => some .number
  | .path _ _ => some .nodes
  | .call name _ => (Function.ofName? name).map Function.result
  | .binary operator _ _ => some operator.result
  | .negate _ => some .number

/-- The value of the expression is a node-set. -/
def isNodes (expression : Expression) : Bool :=
  decide (expression.type? = some .nodes)

end Expression

/-- The function of a name is known, and takes these arguments. -/
def callFits (name : String) (arguments : List Expression) : Bool :=
  match Function.ofName? name with
  | none => false
  | some function =>
      function.arity.admits arguments.length &&
        (!function.takesNodes || arguments.all Expression.isNodes)

/-- The operator takes these operands. -/
def operandsFit : Operator → Expression → Expression → Bool
  | .union, left, right => left.isNodes && right.isNodes
  | _, _, _ => true

mutual

/-- All calls and unions in an expression are well typed, those in predicates and arguments
included. -/
def Expression.isWellTyped : Expression → Bool
  | .literal _ => true
  | .number _ => true
  | .path _ steps => Step.areWellTyped steps
  | .call name arguments => callFits name arguments && Expression.areWellTyped arguments
  | .binary operator left right =>
      operandsFit operator left right && (left.isWellTyped && right.isWellTyped)
  | .negate operand => operand.isWellTyped

def Expression.areWellTyped : List Expression → Bool
  | [] => true
  | expression :: expressions => expression.isWellTyped && Expression.areWellTyped expressions

def Step.isWellTyped : Step → Bool
  | .mk _ _ predicates => Expression.areWellTyped predicates

def Step.areWellTyped : List Step → Bool
  | [] => true
  | step :: steps => step.isWellTyped && Step.areWellTyped steps

end

namespace Function

variable {document : Document} {focus : Focus}

theorem type_of_countNodes {argument value : Value} (counted : countNodes argument = .ok value) :
    value.type = .number := by
  cases argument with
  | nodes found =>
      cases counted
      rfl
  | string _ => cases counted
  | number _ => cases counted
  | boolean _ => cases counted

theorem type_of_nameOfFirst {function : String} {argument value : Value}
    (named : nameOfFirst document function argument = .ok value) : value.type = .string := by
  cases argument with
  | nodes found => cases found <;> cases named <;> rfl
  | string _ => cases named
  | number _ => cases named
  | boolean _ => cases named

/-- A function has values of one type only. -/
theorem type_of_apply {function : Function} {arguments : List Value} {value : Value}
    (applied : function.apply document focus arguments = .ok value) :
    value.type = function.result := by
  cases function with
  | count => exact type_of_countNodes applied
  | name => exact type_of_nameOfFirst applied
  | localName => exact type_of_nameOfFirst applied
  | _ =>
      cases applied
      rfl

/-- The node in focus stands in for an argument that is missing. -/
theorem argumentOrNode_type (focus : Focus) {arguments : List Value}
    (nodes : ∀ argument ∈ arguments, argument.type = .nodes) :
    ∃ found, argumentOrNode focus arguments = .nodes found := by
  cases arguments with
  | nil => exact ⟨_, rfl⟩
  | cons argument others =>
      have type := nodes argument List.mem_cons_self
      cases argument with
      | nodes found => exact ⟨found, rfl⟩
      | string _ => cases type
      | number _ => cases type
      | boolean _ => cases type

/-- There is a name of any node-set, which is empty if the set is. -/
theorem nameOfFirst_ok (function : String) (found : List Address) :
    ∃ value, nameOfFirst document function (.nodes found) = .ok value := by
  cases found <;> exact ⟨_, rfl⟩

/-- A function answers arguments that are node-sets where it needs them to be. -/
theorem apply_ok {function : Function} {arguments : List Value}
    (nodes : function.takesNodes = Bool.true → ∀ argument ∈ arguments, argument.type = .nodes) :
    ∃ value, function.apply document focus arguments = .ok value := by
  cases function with
  | count =>
      obtain ⟨found, same⟩ := argumentOrNode_type focus (nodes rfl)
      simp only [apply, same, countNodes, Except.ok.injEq, exists_eq']
  | name =>
      obtain ⟨found, same⟩ := argumentOrNode_type focus (nodes rfl)
      simpa only [apply, same] using nameOfFirst_ok "name" found
  | localName =>
      obtain ⟨found, same⟩ := argumentOrNode_type focus (nodes rfl)
      simpa only [apply, same] using nameOfFirst_ok "local-name" found
  | _ => exact ⟨_, rfl⟩

end Function

namespace Operator

variable {document : Document}

/-- So has an operator. -/
theorem type_of_apply {operator : Operator} {left right value : Value}
    (applied : operator.apply document left right = .ok value) : value.type = operator.result := by
  cases operator with
  | union =>
      cases left with
      | nodes _ =>
          cases right with
          | nodes _ =>
              cases applied
              rfl
          | _ => cases applied
      | _ => cases applied
  | _ =>
      cases applied
      rfl

/-- The left operand decides only operators whose value is a truth value. -/
theorem result_of_decided? {operator : Operator} {left : Value} {truth : Bool}
    (decided : operator.decided? left = some truth) : operator.result = .boolean := by
  cases operator with
  | or => rfl
  | and => rfl
  | _ => cases decided

/-- An operator has a value for operands that are node-sets where it needs them to be. -/
theorem apply_ok {operator : Operator} {left right : Value}
    (nodes : operator = .union → left.type = .nodes ∧ right.type = .nodes) :
    ∃ value, operator.apply document left right = .ok value := by
  cases operator with
  | union =>
      obtain ⟨leftType, rightType⟩ := nodes rfl
      cases left <;> cases leftType
      cases right <;> cases rightType
      exact ⟨_, rfl⟩
  | _ => exact ⟨_, rfl⟩

end Operator

namespace Expression

/-- Every value of an expression is of the type of the expression. -/
theorem type?_of_evaluate {document : Document} {focus : Focus} {expression : Expression}
    {value : Value} (evaluated : expression.evaluate document focus = .ok value) :
    expression.type? = some value.type := by
  cases expression with
  | literal text =>
      cases evaluated
      rfl
  | number real =>
      cases evaluated
      rfl
  | path absolute steps =>
      simp only [evaluate, Outcome.bind_eq_ok, Outcome.pure_eq_ok] at evaluated
      obtain ⟨found, _, rfl⟩ := evaluated
      rfl
  | call name arguments =>
      simp only [evaluate, Outcome.bind_eq_ok, callFunction] at evaluated
      obtain ⟨values, _, called⟩ := evaluated
      cases known : Function.ofName? name with
      | none => simp only [known, reduceCtorEq] at called
      | some function =>
          simp only [known] at called
          split at called
          · simp only [type?, known, Option.map_some, Function.type_of_apply called]
          · cases called
  | binary operator left right =>
      simp only [evaluate, Outcome.bind_eq_ok] at evaluated
      obtain ⟨leftValue, _, evaluated⟩ := evaluated
      cases decided : operator.decided? leftValue with
      | some truth =>
          simp only [decided, Outcome.pure_eq_ok] at evaluated
          subst evaluated
          exact congrArg some (Operator.result_of_decided? decided)
      | none =>
          simp only [decided, Outcome.bind_eq_ok] at evaluated
          obtain ⟨rightValue, _, applied⟩ := evaluated
          exact congrArg some (Operator.type_of_apply applied).symm
  | negate operand =>
      simp only [evaluate, Outcome.bind_eq_ok, Outcome.pure_eq_ok] at evaluated
      obtain ⟨operandValue, _, rfl⟩ := evaluated
      rfl

/-- What has the type of node-sets is a node-set, if there is a value. -/
theorem type_of_isNodes {document : Document} {focus : Focus} {expression : Expression}
    {value : Value} (isNodes : expression.isNodes = true)
    (evaluated : expression.evaluate document focus = .ok value) : value.type = .nodes :=
  Option.some.inj ((type?_of_evaluate evaluated).symm.trans (of_decide_eq_true isNodes))

/-- There are as many values as expressions. -/
theorem length_of_evaluateAll {document : Document} {focus : Focus}
    {expressions : List Expression} {values : List Value}
    (evaluated : evaluateAll document focus expressions = .ok values) :
    values.length = expressions.length := by
  induction expressions generalizing values with
  | nil =>
      cases evaluated
      rfl
  | cons expression expressions ih =>
      simp only [evaluateAll, Outcome.bind_eq_ok, Outcome.pure_eq_ok] at evaluated
      obtain ⟨value, _, others, there, rfl⟩ := evaluated
      exact congrArg (· + 1) (ih there)

/-- Each of the values of a list of expressions is the value of one of them. -/
theorem exists_of_evaluateAll {document : Document} {focus : Focus}
    {expressions : List Expression} {values : List Value}
    (evaluated : evaluateAll document focus expressions = .ok values) :
    ∀ value ∈ values, ∃ expression ∈ expressions,
      expression.evaluate document focus = .ok value := by
  induction expressions generalizing values with
  | nil =>
      cases evaluated
      exact fun value member => (List.not_mem_nil member).elim
  | cons expression expressions ih =>
      simp only [evaluateAll, Outcome.bind_eq_ok, Outcome.pure_eq_ok] at evaluated
      obtain ⟨first, here, others, there, rfl⟩ := evaluated
      intro value member
      rcases List.mem_cons.mp member with rfl | member
      · exact ⟨expression, List.mem_cons_self, here⟩
      · obtain ⟨written, inOthers, evaluated⟩ := ih there value member
        exact ⟨written, List.mem_cons_of_mem _ inOthers, evaluated⟩

/-- A call with arguments of the right number and types cannot fail. -/
theorem callFunction_ok {document : Document} {focus : Focus} {name : String}
    {arguments : List Expression} {values : List Value} (fits : callFits name arguments = true)
    (evaluated : evaluateAll document focus arguments = .ok values) :
    ∃ value, callFunction name document focus values = .ok value := by
  cases known : Function.ofName? name with
  | none => simp only [callFits, known, Bool.false_eq_true] at fits
  | some function =>
      simp only [callFits, known, Bool.and_eq_true, Bool.or_eq_true, Bool.not_eq_true',
        List.all_eq_true] at fits
      obtain ⟨admitted, nodes⟩ := fits
      rw [← length_of_evaluateAll evaluated] at admitted
      simp only [callFunction, known, admitted, ↓reduceIte]
      refine Function.apply_ok fun takesNodes argument member => ?_
      obtain ⟨expression, written, here⟩ := exists_of_evaluateAll evaluated argument member
      have isNodes := (nodes.resolve_left fun takesNone => by
        rw [takesNodes] at takesNone
        cases takesNone) expression written
      exact type_of_isNodes isNodes here

/-- Nor can an operator on operands of its types. -/
theorem applyOperator_ok {document : Document} {focus : Focus} {operator : Operator}
    {left right : Expression} {leftValue rightValue : Value}
    (fits : operandsFit operator left right = true)
    (leftEvaluated : left.evaluate document focus = .ok leftValue)
    (rightEvaluated : right.evaluate document focus = .ok rightValue) :
    ∃ value, operator.apply document leftValue rightValue = .ok value := by
  refine Operator.apply_ok fun isUnion => ?_
  subst isUnion
  obtain ⟨leftNodes, rightNodes⟩ := Bool.and_eq_true_iff.mp fits
  exact ⟨type_of_isNodes leftNodes leftEvaluated, type_of_isNodes rightNodes rightEvaluated⟩

end Expression

mutual

/-- An expression that is well typed in all its parts has a value at every focus. -/
theorem Expression.evaluate_ok (document : Document) (focus : Focus) :
    (expression : Expression) → expression.isWellTyped = true →
      ∃ value, expression.evaluate document focus = .ok value
  | .literal text, _ => ⟨.string text, rfl⟩
  | .number value, _ => ⟨.number value, rfl⟩
  | .path absolute steps, wellTyped => by
      obtain ⟨found, walked⟩ := Step.walk_ok document focus.root steps
        [if absolute then focus.root else focus.node] wellTyped
      exact ⟨.nodes found, by simp only [Expression.evaluate, walked]; rfl⟩
  | .call name arguments, wellTyped => by
      obtain ⟨fits, argumentsWellTyped⟩ := Bool.and_eq_true_iff.mp wellTyped
      obtain ⟨values, evaluated⟩ :=
        Expression.evaluateAll_ok document focus arguments argumentsWellTyped
      obtain ⟨value, called⟩ := Expression.callFunction_ok fits evaluated
      exact ⟨value, by simp only [Expression.evaluate, evaluated]; exact called⟩
  | .binary operator left right, wellTyped => by
      obtain ⟨fits, operands⟩ := Bool.and_eq_true_iff.mp wellTyped
      obtain ⟨leftWellTyped, rightWellTyped⟩ := Bool.and_eq_true_iff.mp operands
      obtain ⟨leftValue, leftEvaluated⟩ :=
        Expression.evaluate_ok document focus left leftWellTyped
      obtain ⟨rightValue, rightEvaluated⟩ :=
        Expression.evaluate_ok document focus right rightWellTyped
      simp only [Expression.evaluate, leftEvaluated, Outcome.bind_eq_ok, Except.ok.injEq,
        exists_eq_left']
      cases decided : operator.decided? leftValue with
      | some truth => exact ⟨.boolean truth, rfl⟩
      | none =>
          simp only [rightEvaluated, Outcome.bind_eq_ok, Except.ok.injEq, exists_eq_left']
          exact Expression.applyOperator_ok fits leftEvaluated rightEvaluated
  | .negate operand, wellTyped => by
      obtain ⟨value, evaluated⟩ := Expression.evaluate_ok document focus operand wellTyped
      exact ⟨_, by simp only [Expression.evaluate, evaluated]; rfl⟩

theorem Expression.evaluateAll_ok (document : Document) (focus : Focus) :
    (expressions : List Expression) → Expression.areWellTyped expressions = true →
      ∃ values, Expression.evaluateAll document focus expressions = .ok values
  | [], _ => ⟨[], rfl⟩
  | expression :: expressions, wellTyped => by
      obtain ⟨here, there⟩ := Bool.and_eq_true_iff.mp wellTyped
      obtain ⟨value, evaluated⟩ := Expression.evaluate_ok document focus expression here
      obtain ⟨values, others⟩ :=
        Expression.evaluateAll_ok document focus expressions there
      exact ⟨value :: values, by simp only [Expression.evaluateAll, evaluated, others]; rfl⟩

/-- Walking cannot fail if no step does. -/
theorem Step.walk_ok (document : Document) (root : Address) :
    (steps : List Step) → (nodes : List Address) → Step.areWellTyped steps = true →
      ∃ found, Step.walk document root steps nodes = .ok found
  | [], nodes, _ => ⟨nodes, rfl⟩
  | step :: steps, nodes, wellTyped => by
      obtain ⟨here, there⟩ := Bool.and_eq_true_iff.mp wellTyped
      obtain ⟨merged, collected⟩ := collect_ok_iff.mpr fun node (_ : node ∈ nodes) =>
        Step.nodesFrom_ok document root step node here
      obtain ⟨found, walked⟩ :=
        Step.walk_ok document root steps (Address.inOrder merged) there
      exact ⟨found, by simp only [Step.walk, collected]; exact walked⟩

/-- A step fails only in its predicates. -/
theorem Step.nodesFrom_ok (document : Document) (root : Address) :
    (step : Step) → (node : Address) → step.isWellTyped = true →
      ∃ found, Step.nodesFrom document root step node = .ok found
  | .mk axis test predicates, node, wellTyped =>
      Expression.keepAll_ok document root predicates
        ((axis.nodes document node).filter (test.admits axis document)) wellTyped

/-- A predicate may have any type, so it is enough that it has a value on each node. -/
theorem Expression.keepAll_ok (document : Document) (root : Address) :
    (predicates : List Expression) → (nodes : List Address) →
      Expression.areWellTyped predicates = true →
        ∃ kept, Expression.keepAll document root predicates nodes = .ok kept
  | [], nodes, _ => ⟨nodes, rfl⟩
  | predicate :: predicates, nodes, wellTyped => by
      obtain ⟨here, there⟩ := Bool.and_eq_true_iff.mp wellTyped
      simp only [Expression.keepAll, Outcome.bind_eq_ok]
      obtain ⟨kept, collected⟩ := collect_ok_iff.mpr fun (entry : Address × Nat)
          (_ : entry ∈ nodes.zipIdx) => by
        obtain ⟨value, evaluated⟩ := Expression.evaluate_ok document
          ⟨entry.1, root, entry.2 + 1, nodes.length⟩ predicate here
        exact ⟨if value.keeps (entry.2 + 1) then [entry.1] else [],
          Outcome.bind_eq_ok.mpr ⟨value, evaluated, rfl⟩⟩
      obtain ⟨rest, behind⟩ := Expression.keepAll_ok document root predicates kept there
      exact ⟨rest, kept, collected, behind⟩

end

namespace Expression

/-- The nodes that an expression selects are its value at the only position of one node. -/
theorem select_eq_ok_iff {document : Document} {expression : Expression} {node root : Address}
    {found : List Address} :
    expression.select document node root = .ok found ↔
      expression.evaluate document ⟨node, root, 1, 1⟩ = .ok (.nodes found) := by
  simp only [select, Outcome.bind_eq_ok]
  constructor
  · rintro ⟨value, evaluated, selected⟩
    cases value with
    | nodes others =>
        cases selected
        exact evaluated
    | string _ => cases selected
    | number _ => cases selected
    | boolean _ => cases selected
  · exact fun evaluated => ⟨.nodes found, evaluated, rfl⟩

/-- Only node-sets have that type. -/
theorem type_eq_nodes {value : Value} (type : value.type = .nodes) :
    ∃ found, value = .nodes found := by
  cases value with
  | nodes found => exact ⟨found, rfl⟩
  | string _ => cases type
  | number _ => cases type
  | boolean _ => cases type

/-- Static types are sound: what an expression evaluates to is of its static type, an expression
that is well typed in all its parts always evaluates to something, and then it selects nodes exactly
if its static type is that of node-sets. -/
theorem static_types_sound (document : Document) (expression : Expression) :
    (∀ focus value, expression.evaluate document focus = .ok value →
      expression.type? = some value.type) ∧
    (expression.isWellTyped = true →
      (∀ focus, ∃ value, expression.evaluate document focus = .ok value) ∧
      ∀ node root, (∃ found, expression.select document node root = .ok found) ↔
        expression.type? = some .nodes) := by
  refine ⟨fun focus value => type?_of_evaluate, fun wellTyped => ⟨fun focus =>
    evaluate_ok document focus expression wellTyped, fun node root => ?_⟩⟩
  constructor
  · rintro ⟨found, selected⟩
    exact type?_of_evaluate (select_eq_ok_iff.mp selected)
  · intro type
    obtain ⟨value, evaluated⟩ := evaluate_ok document ⟨node, root, 1, 1⟩ expression wellTyped
    have valueType := Option.some.inj ((type?_of_evaluate evaluated).symm.trans type)
    obtain ⟨found, rfl⟩ := type_eq_nodes valueType
    exact ⟨found, select_eq_ok_iff.mpr evaluated⟩

/-- The expression `child::a[count(attribute::* | self::node()) = last()] | /`, in a document with
one element. -/
theorem static_types_sound_union :
    let document : Document := ⟨[.element "a" [⟨"id", "1"⟩] [] ""], ""⟩
    let size : Expression := .call "count"
      [.binary .union (.path false [.mk .attr .any []]) (.path false [.here])]
    let items : Expression :=
      .path false [.mk .child (.name "a") [.binary (.compare .equal) size (.call "last" [])]]
    let expression : Expression := .binary .union items (.path true [])
    expression.isWellTyped = true ∧ expression.type? = some .nodes ∧
      ∃ found, expression.select document [] [] = .ok found :=
  ⟨by decide, rfl, (((static_types_sound _ _).2 (by decide)).2 [] []).mpr rfl⟩

end Expression

end XPath

end XmlRecords
