import GuidedTours.FinishEffect
import GuidedTours.FlowId
import GuidedTours.Moment
import GuidedTours.Segment
import GuidedTours.StepTree.Outline
import GuidedTours.Targeting

/-!
Flows: the tours that a workspace owns, each one document with its steps, their relations and the
options. The store counts a flow's saves in its revision.
-/

set_option autoImplicit false

namespace GuidedTours

inductive TriggerKind where
  | automatic
  | pageVisit
  | elementClick
deriving DecidableEq

/-- What starts a flow for an enrolled user. -/
structure Trigger where
  id : String := ""
  kind : TriggerKind := .automatic
  data : OpenData := .empty

structure FlowOpts where
  segmentation : Bool := false
  themeColor : String := "#000000"
  avatarId : Option String := none
  elementTemplate : ElementTemplate := .light
  trigger : Trigger := {}
  targeting : Targeting := {}
  /-- Flows to be finished before this one is offered. -/
  dependsOn : List FlowId := []
  finishEffect : FinishEffect := {}

structure Flow where
  id : FlowId
  workspace : String
  name : String
  baseUrl : String := ""
  segments : List Segment := []
  steps : List Step := []
  relations : List Relation := []
  opts : FlowOpts := {}
  live : Bool := false
  revision : UInt64 := 0
  createdAt : Moment

structure FlowSummary where
  id : FlowId
  name : String
  live : Bool
deriving DecidableEq

namespace Flow

def summary (f : Flow) : FlowSummary := ⟨f.id, f.name, f.live⟩

def dependsOn (f : Flow) (other : FlowId) : Bool := f.opts.dependsOn.contains other

/-- Works out the outline of the steps, marks them and keeps the relations. -/
def refresh (f : Flow) : Except TreeError (Outline × Flow) :=
  (StepTree.outline f.steps).map fun (outline, steps) ↦
    (outline, { f with steps, relations := outline.relations })

end Flow

end GuidedTours
