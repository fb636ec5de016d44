import GuidedTours.StepTree

/-!
The outline of a step list: its root, the parent and child pairs that the root leads to, and the
steps that it does not lead to. Working it out also marks the source and the final steps, and hands
segments down: an untagged step that the root leads to gets the segment of the nearest tagged step
above it.
-/

set_option autoImplicit false

namespace GuidedTours

structure Relation where
  parent : String
  child : String
deriving DecidableEq

/-- Ordered by parent, then by child. -/
def Relation.le (a b : Relation) : Bool :=
  a.parent < b.parent || (a.parent == b.parent && a.child ≤ b.child)

structure Outline where
  root : Option String := none
  relations : List Relation := []
  unreachable : List String := []
deriving DecidableEq

namespace StepTree

/-- The first element that also stands earlier in the list or among `seen`. -/
def firstRepeat (seen : List String) : List String → Option String
  | [] => none
  | id :: rest => if seen.contains id then some id else firstRepeat (id :: seen) rest

/-- A step that the root leads to, with the segment in force there. -/
structure Visit where
  id : String
  segment : Option String
deriving DecidableEq

/-- The steps right below those of one level. -/
def nextLevel (steps : List Step) (level : List Visit) : List Visit :=
  steps.filterMap fun s ↦
    (level.find? fun v ↦ s.parent? = some v.id).map fun v ↦ ⟨s.id, s.segment?.or v.segment⟩

/-- A level and the ones below it, as many levels as the number tells. -/
def descend (steps : List Step) : Nat → List Visit → List Visit
  | 0, _ => []
  | n + 1, level => level ++ descend steps n (nextLevel steps level)

/-- All that a root leads to. There are no more levels than steps. -/
def visitsFrom (steps : List Step) (root : Step) : List Visit :=
  descend steps steps.length [⟨root.id, root.segment?⟩]

/-- The pair of a step and its parent if the root leads to the parent. -/
def relation? (visits : List Visit) (s : Step) : Option Relation :=
  s.parent?.bind fun parent ↦
    if visits.any (·.id = parent) then some ⟨parent, s.id⟩ else none

def relationsOf (steps : List Step) (visits : List Visit) : List Relation :=
  (steps.filterMap (relation? visits)).mergeSort Relation.le

/-- Sets what follows from the outline: the two flags, and the segment of an untagged step. -/
def mark (relations : List Relation) (visits : List Visit) (s : Step) : Step :=
  let inherited := (visits.find? (·.id = s.id)).bind Visit.segment
  { s with
    opts := { s.opts with
      isSource := s.parent?.isNone
      isFinal := !relations.any (·.parent = s.id)
      segmentId := if s.segment?.isSome then s.opts.segmentId else inherited.or s.opts.segmentId } }

/-- The outline and the marked steps. The ids must be distinct, and one step must be the root
unless there are no steps at all. -/
def outline (steps : List Step) : Except TreeError (Outline × List Step) :=
  match firstRepeat [] (steps.map Step.id) with
  | some id => .error (.repeatedId id)
  | none =>
    if steps = [] then .ok ({}, [])
    else
      match root steps with
      | .error e => .error e
      | .ok top =>
        let visits := visitsFrom steps top
        let relations := relationsOf steps visits
        let unreachable := (steps.map Step.id).filter fun id ↦ !visits.any (·.id = id)
        .ok (⟨some top.id, relations, unreachable⟩, steps.map (mark relations visits))

end StepTree

end GuidedTours
