/-!
Steps of a tour. Each step names the step that it follows; the one that follows none is the source.
An empty parent or segment reads as none, although the text is kept as it came.
-/

set_option autoImplicit false

namespace GuidedTours

inductive ElementType where
  | tooltip
  | popup
deriving DecidableEq

inductive ElementTemplate where
  | light
  | dark
deriving DecidableEq

inductive BlockKind where
  | text
  | image
  | video
  | avatar
deriving DecidableEq

structure StepBlock where
  kind : BlockKind
  data : String
deriving DecidableEq

/-- What a step shows, and where. -/
structure StepData where
  name : String := ""
  description : String := ""
  targetUrl : Option String := none
  assignedCssElement : Option String := none
  elementType : Option ElementType := none
  placement : Option String := none
  elementTemplate : Option ElementTemplate := none
  blocks : List StepBlock := []
deriving DecidableEq

structure StepTransition where
  inAnimation : Option String := none
  outAnimation : Option String := none
  loopAnimation : Option String := none
deriving DecidableEq

/-- Whether a step is the source or a final one follows from the other steps. -/
structure StepOpts where
  isSource : Bool := false
  isFinal : Bool := false
  segmentId : Option String := none
  transition : StepTransition := {}
  actionable : Bool := false
deriving DecidableEq

structure Step where
  id : String
  parentId : Option String := none
  data : StepData := {}
  opts : StepOpts := {}
deriving DecidableEq

/-- The empty text stands for no name. -/
def named? (name : Option String) : Option String :=
  name.filter (· ≠ "")

theorem named?_eq_some_iff {name : Option String} {s : String} :
    named? name = some s ↔ name = some s ∧ s ≠ "" := by
  simp [named?, Option.filter_eq_some_iff]

theorem named?_named? (name : Option String) : named? (named? name) = named? name := by
  cases name with
  | none => rfl
  | some s => by_cases h : s = "" <;> simp [named?, Option.filter, h]

namespace Step

def parent? (s : Step) : Option String := named? s.parentId

def segment? (s : Step) : Option String := named? s.opts.segmentId

def setParent (parent : Option String) (s : Step) : Step :=
  { s with parentId := named? parent }

@[simp] theorem parent?_setParent (parent : Option String) (s : Step) :
    (s.setParent parent).parent? = named? parent :=
  named?_named? parent

@[simp] theorem id_setParent (parent : Option String) (s : Step) :
    (s.setParent parent).id = s.id := rfl

end Step

end GuidedTours
