import GuidedTours.StepTree
import GuidedTours.Text.Blank

/-!
Edits of a step list: replacing or moving a step, inserting one, deleting one. An inserted step is
spliced in between its parent and the first step that followed the parent so far. The outline of
the result is a matter of its own.
-/

set_option autoImplicit false

namespace GuidedTours

inductive StepError where
  | blankId
  | unknownStep (id : String)
  | unknownParent (parent : String)
  | underItself (id parent : String)
deriving DecidableEq

def StepError.message : StepError → String
  | .blankId => "invalid reference: empty step id"
  | .unknownStep id => "not found: step " ++ id
  | .unknownParent parent => "invalid reference: parent step " ++ parent ++ " does not exist"
  | .underItself id parent =>
    "invalid reference: step " ++ id ++ " cannot be moved under " ++ parent

/-- Which of the steps that followed a deleted one move up to its parent. -/
inductive DeletePolicy where
  | reconnectFirst
  | reconnectAll
deriving DecidableEq

/-- Changes the first element with a property. -/
def modifyFirst {α : Type} (p : α → Bool) (f : α → α) : List α → List α
  | [] => []
  | x :: xs => if p x then f x :: xs else x :: modifyFirst p f xs

namespace StepTree

/-- A step may move below any step of the list except itself and those below it. -/
def checkMove (steps : List Step) (id parent : String) : Except StepError Unit :=
  if (find? steps parent).isNone then .error (.unknownParent parent)
  else if isAncestor steps id parent then .error (.underItself id parent)
  else .ok ()

/-- Replaces the data of a step, and moves it if a parent other than the present one is given. -/
def replace (steps : List Step) (id : String) (data : StepData) (parent : Option String) :
    Except StepError (List Step) :=
  match find? steps id with
  | none => .error (.unknownStep id)
  | some current =>
    match (named? parent).filter (current.parent? ≠ some ·) with
    | none => .ok (modifyFirst (·.id = id) (fun s ↦ { s with data }) steps)
    | some parent =>
      (checkMove steps id parent).map fun _ ↦
        modifyFirst (·.id = id) (fun s ↦ { s.setParent (some parent) with data }) steps

def insert (steps : List Step) (incoming : Step) : Except StepError (List Step) :=
  match incoming.parent?.filter fun parent ↦ (find? steps parent).isNone with
  | some parent => .error (.unknownParent parent)
  | none =>
    .ok (modifyFirst (·.parent? = incoming.parent?) (Step.setParent (some incoming.id)) steps ++
      [incoming])

/-- Replaces the step with the id of the incoming one, or inserts it if there is none. Of a step
that is replaced only the data and the parent change. -/
def upsert (steps : List Step) (incoming : Step) : Except StepError (List Step) :=
  if Text.isBlankText incoming.id then .error .blankId
  else if (find? steps incoming.id).isSome then
    replace steps incoming.id incoming.data incoming.parent?
  else insert steps incoming

/-- The deleted step and the others, unless no step has the id. -/
def delete (policy : DeletePolicy) (id : String) (steps : List Step) :
    Option (Step × List Step) :=
  (find? steps id).map fun removed ↦
    let rest := steps.eraseP (·.id = id)
    (removed, match policy with
      | .reconnectFirst =>
        modifyFirst (·.parent? = some id) (Step.setParent removed.parent?) rest
      | .reconnectAll =>
        rest.map fun s ↦ if s.parent? = some id then s.setParent removed.parent? else s)

end StepTree

end GuidedTours
