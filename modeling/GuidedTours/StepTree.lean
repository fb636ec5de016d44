import GuidedTours.Step

/-!
The tree that the parents of a list of steps describe. Nothing is assumed of the list: ids may
repeat, parents may be missing or lead in a circle. Where several steps have one id the first
counts.
-/

set_option autoImplicit false

namespace GuidedTours

inductive TreeError where
  | noRoot
  | manyRoots (ids : List String)
  | repeatedId (id : String)
deriving DecidableEq

def TreeError.message : TreeError → String
  | .noRoot => "no source step found (every step has a parent)"
  | .manyRoots ids => "multiple source steps found: " ++ String.intercalate ", " ids
  | .repeatedId id => "duplicate step id: " ++ id

namespace StepTree

def find? (steps : List Step) (id : String) : Option Step :=
  steps.find? (·.id = id)

/-- Whether a step with the given segment passes a filter; no filter and the empty one pass all. -/
def passes (segment : Option String) (s : Step) : Bool :=
  match named? segment with
  | none => true
  | some name => s.segment? = some name

/-- The steps that follow a given one, in the order of the list. -/
def children (steps : List Step) (parent : String) (segment : Option String) : List Step :=
  (steps.filter (·.parent? = some parent)).filter (passes segment)

def firstChild (steps : List Step) (parent : String) (segment : Option String) : Option Step :=
  (children steps parent segment).head?

/-- The only step without a parent. -/
def root (steps : List Step) : Except TreeError Step :=
  match steps.filter (·.parent?.isNone) with
  | [] => .error .noRoot
  | [s] => .ok s
  | several => .error (.manyRoots (several.map Step.id))

/-- The parent that the step with the given id names. -/
def parentOf (steps : List Step) (id : String) : Option String :=
  (find? steps id).bind Step.parent?

/-- The first ids met on the way up from an id, itself included. -/
def chain (steps : List Step) : Nat → String → List String
  | 0, _ => []
  | n + 1, id =>
    match parentOf steps id with
    | none => [id]
    | some parent => id :: chain steps n parent

/-- Whether the way up from `id` passes through `ancestor`. A way that does not run in a circle
meets each step once and perhaps a missing parent at its end. -/
def isAncestor (steps : List Step) (ancestor id : String) : Bool :=
  (chain steps (steps.length + 1) id).contains ancestor

end StepTree

end GuidedTours
