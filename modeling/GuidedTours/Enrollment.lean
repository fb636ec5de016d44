import GuidedTours.Analytics
import GuidedTours.Enrollment.Eligibility
import GuidedTours.Store

/-!
Enrollment: the flow that a user should see next is chosen, progress is recorded and forgotten, and
events are tracked. A user in the middle of a flow resumes it as long as it is live.
-/

set_option autoImplicit false

namespace GuidedTours

inductive EnrollError where
  | malformedFlowId (raw : String)
  | store (error : StoreError)
deriving DecidableEq

def EnrollError.message : EnrollError → String
  | .malformedFlowId raw => "invalid reference: malformed flow id: " ++ raw
  | .store error => "store error: " ++ error.message

namespace Enrollment

variable {σ : Type} [Store σ]

def parseFlowId (raw : String) : Except EnrollError FlowId :=
  match FlowId.parseEntered? raw with
  | some id => .ok id
  | none => .error (.malformedFlowId raw)

/-- The flow with an id if it is live in the workspace. -/
def liveFlow (workspace flowId : String) (s : σ) : Except EnrollError (Option Flow) := do
  let id ← parseFlowId flowId
  match Store.getFlow workspace id s with
  | .ok flow => .ok (if flow.live then some flow else none)
  | .error e => if e.isNotFound then .ok none else .error (.store e)

/-- The flow that the user is in the middle of, or the first live flow that may be offered. -/
def resolve (workspace : String) (opts : EnrollmentOpts) (now : Moment) (s : σ) :
    Except EnrollError (Option Flow) :=
  match named? opts.currentEnrollmentId with
  | some current => liveFlow workspace current s
  | none =>
    ((Store.listLiveFlows workspace s).mapError .store).map
      (List.find? (Eligibility.of opts now).accepts)

/-- The stored state of a user, or that of a new one. -/
def stateOrNew (workspace user : String) (s : σ) : UserState :=
  (Store.getUserState workspace user s).getD { workspace, user }

/-- Chooses a flow and makes it the user's current one. -/
def enroll (workspace : String) (profile : UserProfile) (now : Moment) (s : σ) :
    Except EnrollError (Option Flow) × σ :=
  let stored := Store.getUserState workspace profile.externalId s
  let state := stateOrNew workspace profile.externalId s
  match resolve workspace (.ofState state profile) now s with
  | .error e => (.error e, s)
  | .ok selected =>
    let updated :=
      match selected with
      | some flow => { state with currentFlow := some flow.id }
      | none => state
    let changed := updated.currentFlow ≠ state.currentFlow
    (.ok selected, if changed ∨ stored.isNone then Store.putUserState updated s else s)

/-- The flow of a report that has an outcome. -/
def outcome? (report : ProgressReport) : Except EnrollError (Option FlowId) :=
  if report.finished ∨ report.skipped then (parseFlowId report.flowId).map some else .ok none

/-- The state after a report. A flow that has been finished does not count as skipped. -/
def progress (report : ProgressReport) (outcome : Option FlowId) (now : Moment)
    (state : UserState) : UserState :=
  let state := { state with currentStep := named? report.currentStepId }
  let state :=
    match outcome with
    | none => state
    | some flow =>
      let state :=
        if report.skipped then { state with skipped := state.skipped.insert flow }.submit flow now
        else state
      if report.finished then
        { state with completed := state.completed.insert flow }.submit flow now
      else state
  { state with skipped := state.skipped.diff state.completed }

/-- Records a report and answers the state after it. A report with neither an outcome nor a step
changes nothing and has no answer. -/
def report (workspace user : String) (report : ProgressReport) (now : Moment) (s : σ) :
    Except EnrollError (Option UserState) × σ :=
  if !report.finished ∧ !report.skipped ∧ named? report.currentStepId = none then (.ok none, s)
  else
    match outcome? report with
    | .error e => (.error e, s)
    | .ok outcome =>
      let state := progress report outcome now (stateOrNew workspace user s)
      (.ok (some state), Store.putUserState state s)

/-- Forgets all progress of a user; a user without a state gets none. -/
def reset (workspace user : String) (s : σ) : σ :=
  match Store.getUserState workspace user s with
  | none => s
  | some state => Store.putUserState state.reset s

/-- Records events of a user, whatever workspace and user they carry. -/
def trackEvents (workspace user : String) (events : List TrackedEvent) (s : σ) : σ :=
  if events.isEmpty then s
  else Store.recordEvents (events.map fun e ↦ { e with workspace, user }) s

def analytics (workspace flowId : String) (s : σ) : Except EnrollError FlowAnalytics := do
  let id ← parseFlowId flowId
  let flow ← (Store.getFlow workspace id s).mapError .store
  return FlowAnalytics.ofEvents flow.id (Store.listEvents workspace flow.id s)

end Enrollment

end GuidedTours
