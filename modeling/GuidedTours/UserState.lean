import GuidedTours.FlowId
import GuidedTours.Moment
import GuidedTours.StepTree.Edit

/-!
How far one user has come with the flows of a workspace.
-/

set_option autoImplicit false

namespace GuidedTours

structure UserState where
  workspace : String
  user : String
  currentFlow : Option FlowId := none
  currentStep : Option String := none
  completed : FlowIdSet := .empty
  skipped : FlowIdSet := .empty
  lastSubmittedFlow : Option FlowId := none
  lastSubmittedAt : Option Moment := none

namespace UserState

/-- Forgets all progress. -/
def reset (s : UserState) : UserState := { workspace := s.workspace, user := s.user }

/-- Takes an outcome of a flow into account: the flow is no longer the current one, and it is the
last submitted one unless an outcome of the same or a later moment is known. -/
def submit (flow : FlowId) (now : Moment) (s : UserState) : UserState :=
  let s := if s.currentFlow = some flow then { s with currentFlow := none } else s
  match s.lastSubmittedAt with
  | some last =>
    if last < now then { s with lastSubmittedAt := some now, lastSubmittedFlow := some flow }
    else s
  | none => { s with lastSubmittedAt := some now, lastSubmittedFlow := some flow }

def isOf (workspace user : String) (s : UserState) : Bool :=
  s.workspace = workspace && s.user = user

/-- Puts a state in the place of the one of the same user and workspace, or at the end. -/
def put (s : UserState) (states : List UserState) : List UserState :=
  if states.any (isOf s.workspace s.user) then
    modifyFirst (isOf s.workspace s.user) (fun _ ↦ s) states
  else states ++ [s]

end UserState

end GuidedTours
