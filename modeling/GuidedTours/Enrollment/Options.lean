import GuidedTours.UserState

/-!
What enrollment knows of a user: the profile that the host application gives, the progress that
clients report, and the options that a resolution looks at, in which flow ids are texts as somebody
sent them.
-/

set_option autoImplicit false

namespace GuidedTours

structure EnrollmentOpts where
  skippedIds : List String := []
  finishedIds : List String := []
  /-- A flow that the user is in the middle of; with it nothing else is looked at. -/
  currentEnrollmentId : Option String := none
  /-- In seconds since 1970; zero stands for unknown. -/
  signUpTimestamp : Option Int64 := none
  userSegment : Option String := none
  userId : Option String := none
deriving DecidableEq

structure UserProfile where
  externalId : String
  signUpTimestamp : Option Int64 := none
  segment : Option String := none
deriving DecidableEq

/-- Progress in one flow, as a client reports it. -/
structure ProgressReport where
  flowId : String := ""
  currentStepId : Option String := none
  finished : Bool := false
  skipped : Bool := false
deriving DecidableEq

def EnrollmentOpts.ofState (state : UserState) (profile : UserProfile) : EnrollmentOpts where
  skippedIds := state.skipped.ids.map FlowId.text
  finishedIds := state.completed.ids.map FlowId.text
  currentEnrollmentId := state.currentFlow.map FlowId.text
  signUpTimestamp := profile.signUpTimestamp
  userSegment := profile.segment
  userId := some profile.externalId

end GuidedTours
