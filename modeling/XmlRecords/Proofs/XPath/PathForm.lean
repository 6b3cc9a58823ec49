import XmlRecords.Proofs.XPath.Paths

/-! # Ways to write a location path

The child axis is left out, `@` stands for the attribute axis, `.` and `..` for the node itself and
its parent, two slashes for a step to anywhere below, and a name test may have a prefix, which does
not count. Each of these is chosen on its own. The expansion of what is written takes none of them
and stands for the same path.
-/

namespace XmlRecords

namespace XPath

section Forms

/-- A text that is read as an expression between brackets. -/
structure PredicateText where
  text : List Char
  content : Expression
  reads : readPredicate (readNested (text.length + 2)) (bracketed text) = some (content, [])

/-- A node test as it is written, where a name may have a prefix. -/
inductive TestForm where
  | plain (test : NodeTest) (printable : test.isPrintable)
  | prefixed (space word : String) (spaceNamed : isName space.toList)
      (wordNamed : isName word.toList)

namespace TestForm

def text : TestForm → List Char
  | plain test _ => test.written
  | prefixed space word _ _ => space.toList ++ ':' :: word.toList

def test : TestForm → NodeTest
  | plain test _ => test
  | prefixed _ word _ _ => .name word

/-- The node test without a prefix. -/
def expanded : TestForm → TestForm
  | plain test printable => plain test printable
  | prefixed _ word _ wordNamed => plain (.name word) wordNamed

def isPlain : TestForm → Bool
  | plain _ _ => true
  | prefixed _ _ _ _ => false

end TestForm

/-- A step as it is written: in full, or with an abbreviation of its axis or of the whole step. -/
inductive StepForm where
  | full (axis : Axis) (test : TestForm) (predicates : List PredicateText)
  | child (test : TestForm) (predicates : List PredicateText)
  | attr (test : TestForm) (predicates : List PredicateText)
  | here
  | up

/-- The predicates of a step in their brackets. -/
def writtenIn (predicates : List PredicateText) : List Char :=
  predicates.flatMap fun predicate => bracketed predicate.text

namespace StepForm

def text : StepForm → List Char
  | full axis test predicates =>
      axis.name.toList ++ "::".toList ++ test.text ++ writtenIn predicates
  | child test predicates => test.text ++ writtenIn predicates
  | attr test predicates => '@' :: test.text ++ writtenIn predicates
  | here => ['.']
  | up => ['.', '.']

def step : StepForm → Step
  | full axis test predicates => .mk axis test.test (predicates.map PredicateText.content)
  | child test predicates => .mk .child test.test (predicates.map PredicateText.content)
  | attr test predicates => .mk .attr test.test (predicates.map PredicateText.content)
  | here => .here
  | up => .up

/-- An axis on which any node is looked for. -/
def anyNode (axis : Axis) : StepForm :=
  full axis (.plain .node rfl) []

/-- The step with its axis spelled out. -/
def expanded : StepForm → StepForm
  | full axis test predicates => full axis test.expanded predicates
  | child test predicates => full .child test.expanded predicates
  | attr test predicates => full .attr test.expanded predicates
  | here => anyNode .self
  | up => anyNode .parent

def isFull : StepForm → Bool
  | full _ test _ => test.isPlain
  | _ => false

end StepForm

/-- A step behind slashes. Two of them stand for a step between them. -/
structure Link where
  doubled : Bool
  step : StepForm

namespace Link

def text (link : Link) : List Char :=
  if link.doubled then '/' :: '/' :: link.step.text else '/' :: link.step.text

def steps (link : Link) : List Step :=
  if link.doubled then [.anywhere, link.step.step] else [link.step.step]

/-- The step with one slash before it, and before it the one that two slashes stand for. -/
def expanded (link : Link) : List Link :=
  if link.doubled then [⟨false, .anyNode .descendantOrSelf⟩, ⟨false, link.step.expanded⟩]
  else [⟨false, link.step.expanded⟩]

def isFull (link : Link) : Bool :=
  !link.doubled && link.step.isFull

end Link

/-- A location path as it is written, from the root with slashes before each step, or from a first
step on. -/
inductive PathForm where
  | absolute (links : List Link)
  | relative (first : StepForm) (links : List Link)

namespace PathForm

/-- One slash alone is the root. -/
def text : PathForm → List Char
  | absolute [] => ['/']
  | absolute (link :: links) => link.text ++ links.flatMap Link.text
  | relative first links => first.text ++ links.flatMap Link.text

def path : PathForm → Expression
  | absolute links => .path true (links.flatMap Link.steps)
  | relative first links => .path false (first.step :: links.flatMap Link.steps)

def print (form : PathForm) : String :=
  String.ofList form.text

/-- The path without abbreviations. -/
def expanded : PathForm → PathForm
  | absolute links => absolute (links.flatMap Link.expanded)
  | relative first links => relative first.expanded (links.flatMap Link.expanded)

def isFull : PathForm → Bool
  | absolute links => links.all Link.isFull
  | relative first links => first.isFull && links.all Link.isFull

end PathForm

end Forms

section Expansion

/-- A test without its prefix means the same. -/
@[simp]
theorem TestForm.test_expanded (form : TestForm) : form.expanded.test = form.test := by
  cases form <;> rfl

theorem TestForm.isPlain_expanded (form : TestForm) : form.expanded.isPlain = true := by
  cases form <;> rfl

/-- A step written in full means the same. -/
@[simp]
theorem StepForm.step_expanded (form : StepForm) : form.expanded.step = form.step := by
  cases form with
  | full axis test predicates => rw [expanded, step, TestForm.test_expanded, step]
  | child test predicates => rw [expanded, step, TestForm.test_expanded, step]
  | attr test predicates => rw [expanded, step, TestForm.test_expanded, step]
  | here => rfl
  | up => rfl

/-- Nothing is abbreviated in a step that is written in full. -/
theorem StepForm.isFull_expanded (form : StepForm) : form.expanded.isFull = true := by
  cases form with
  | full axis test predicates => exact test.isPlain_expanded
  | child test predicates => exact test.isPlain_expanded
  | attr test predicates => exact test.isPlain_expanded
  | here => rfl
  | up => rfl

/-- Two slashes mean the step that is written out for them. -/
@[simp]
theorem Link.steps_expanded (link : Link) : link.expanded.flatMap steps = link.steps := by
  obtain ⟨doubled, step⟩ := link
  cases doubled with
  | true =>
      simp only [expanded, if_true, List.flatMap_cons, List.flatMap_nil, steps,
        StepForm.step_expanded]
      rfl
  | false => simp [expanded, steps]

theorem Link.isFull_expanded (link : Link) : ∀ other ∈ link.expanded, other.isFull = true := by
  obtain ⟨doubled, step⟩ := link
  have full : (Link.mk false step.expanded).isFull = true := step.isFull_expanded
  cases doubled with
  | true => exact List.forall_mem_cons.mpr ⟨rfl, List.forall_mem_singleton.mpr full⟩
  | false => exact List.forall_mem_singleton.mpr full

namespace PathForm

/-- The steps of a path written in full are those of the path. -/
theorem steps_expanded (links : List Link) :
    (links.flatMap Link.expanded).flatMap Link.steps = links.flatMap Link.steps := by
  rw [List.flatMap_assoc]
  exact List.flatMap_congr fun link _ => link.steps_expanded

/-- The expansion is another way to write the same path. -/
theorem path_expanded (form : PathForm) : form.expanded.path = form.path := by
  cases form with
  | absolute links => rw [expanded, path, steps_expanded, path]
  | relative first links => rw [expanded, path, steps_expanded, StepForm.step_expanded, path]

/-- Nothing is abbreviated in a path that is written in full. -/
theorem isFull_expanded (form : PathForm) : form.expanded.isFull = true := by
  have links : ∀ links : List Link, (links.flatMap Link.expanded).all Link.isFull = true := by
    intro links
    refine List.all_eq_true.mpr fun other member => ?_
    obtain ⟨link, -, among⟩ := List.mem_flatMap.mp member
    exact link.isFull_expanded other among
  cases form with
  | absolute others => exact links others
  | relative first others => exact Bool.and_eq_true_iff.mpr ⟨first.isFull_expanded, links others⟩

end PathForm

end Expansion

end XPath

end XmlRecords
