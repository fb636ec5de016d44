import GuidedTours.Ascending

/-!
Events that clients report: who did what to which flow or helper, and when by the client's clock.
-/

set_option autoImplicit false

namespace GuidedTours

inductive EventKind where
  | helperClick
  | helperHover
  | helperClose
  | flowStepStart
  | flowStepFinish
  | flowSkipped
  | flowFinished
deriving DecidableEq

structure TrackedEvent where
  workspace : String := ""
  user : String := ""
  entity : String
  kind : EventKind
  timestamp : Int64
  metadata : Dictionary String := .empty

namespace TrackedEvent

/-- Under this key the metadata name the step that an event is about. -/
def stepKey : String := "step_id"

def withStep (step : String) (e : TrackedEvent) : TrackedEvent :=
  { e with metadata := e.metadata.insert stepKey step }

def step? (e : TrackedEvent) : Option String := e.metadata.get? stepKey

end TrackedEvent

end GuidedTours
