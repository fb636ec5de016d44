import GuidedTours.Enrollment

/-!
Requests to the enrollment of one workspace. Those that depend on the time come with it.
-/

set_option autoImplicit false

namespace GuidedTours

inductive EnrollmentRequest where
  | resolve (opts : EnrollmentOpts) (now : Moment)
  | liveFlow (flowId : String)
  | state (user : String)
  | enroll (profile : UserProfile) (now : Moment)
  | report (user : String) (progress : ProgressReport) (now : Moment)
  | reset (user : String)
  | trackEvents (user : String) (events : List TrackedEvent)
  | analytics (flowId : String)

inductive EnrollmentAnswer where
  | done
  | flow (flow : Option Flow)
  | userState (state : Option UserState)
  | analytics (analytics : FlowAnalytics)

namespace EnrollmentRequest

variable {σ : Type} [Store σ]

def perform (workspace : String) (s : σ) :
    EnrollmentRequest → Except EnrollError EnrollmentAnswer × σ
  | .resolve opts now => ((Enrollment.resolve workspace opts now s).map .flow, s)
  | .liveFlow flowId => ((Enrollment.liveFlow workspace flowId s).map .flow, s)
  | .state user => (.ok (.userState (Store.getUserState workspace user s)), s)
  | .enroll profile now =>
    let (answer, s) := Enrollment.enroll workspace profile now s
    (answer.map .flow, s)
  | .report user progress now =>
    let (answer, s) := Enrollment.report workspace user progress now s
    (answer.map .userState, s)
  | .reset user => (.ok .done, Enrollment.reset workspace user s)
  | .trackEvents user events => (.ok .done, Enrollment.trackEvents workspace user events s)
  | .analytics flowId => ((Enrollment.analytics workspace flowId s).map .analytics, s)

end EnrollmentRequest

end GuidedTours
