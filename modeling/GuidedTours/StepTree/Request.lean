import GuidedTours.StepTree.Edit
import GuidedTours.StepTree.Outline

/-!
Requests to a step list that somebody is working on: edits, and working out the outline. A request
that fails leaves the list as it is.
-/

set_option autoImplicit false

namespace GuidedTours

inductive StepRequest where
  | upsert (step : Step)
  | replace (id : String) (parent : Option String) (data : StepData)
  | delete (policy : DeletePolicy) (id : String)
  | outline

inductive StepAnswer where
  | done
  | removed (step : Option Step)
  | outline (outline : Outline)

inductive StepFailure where
  | edit (error : StepError)
  | tree (error : TreeError)
deriving DecidableEq

def StepFailure.message : StepFailure → String
  | .edit error => error.message
  | .tree error => error.message

namespace StepRequest

/-- The steps after an edit, or the unchanged ones if it failed. -/
def edited (steps : List Step) (result : Except StepError (List Step)) :
    Except StepFailure StepAnswer × List Step :=
  match result with
  | .error e => (.error (.edit e), steps)
  | .ok steps => (.ok .done, steps)

def perform (steps : List Step) : StepRequest → Except StepFailure StepAnswer × List Step
  | .upsert step => edited steps (StepTree.upsert steps step)
  | .replace id parent data => edited steps (StepTree.replace steps id data parent)
  | .delete policy id =>
    match StepTree.delete policy id steps with
    | none => (.ok (.removed none), steps)
    | some (step, rest) => (.ok (.removed (some step)), rest)
  | .outline =>
    match StepTree.outline steps with
    | .error e => (.error (.tree e), steps)
    | .ok (found, marked) => (.ok (.outline found), marked)

end StepRequest

end GuidedTours
