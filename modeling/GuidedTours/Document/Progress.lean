import GuidedTours.Document.Flow
import GuidedTours.Enrollment

/-!
User states, events, enrollment options and analytics as documents. A user state leaves out what is
unknown; the options, profiles and reports write `null` for it.
-/

set_option autoImplicit false

namespace GuidedTours

open Json

namespace FlowIdSet

def toJson (s : FlowIdSet) : Json := Json.ofList FlowId.toJson s.ids

def ofJson? (v : Json) : Option FlowIdSet := (v.list? FlowId.ofJson?).map ofList

end FlowIdSet

namespace Dictionary

variable {α : Type}

def toJson (write : α → Json) (m : Dictionary α) : Json :=
  .object (m.entries.map fun e ↦ (e.1, write e.2))

def ofJson? (read : Json → Option α) : Json → Option (Dictionary α)
  | .object members =>
    (members.mapM fun m ↦ (read m.2).map fun value ↦ (m.1, value)).map ofList
  | _ => none

end Dictionary

namespace UserState

def toJson (s : UserState) : Json :=
  .object ([("workspace_id", .text s.workspace), ("user_id", .text s.user)] ++
    memberIfSome "current_flow_id" FlowId.toJson s.currentFlow ++
    memberIfSome "current_step_id" .text s.currentStep ++
    [("completed_flow_ids", s.completed.toJson), ("skipped_flow_ids", s.skipped.toJson)] ++
    memberIfSome "last_submitted_flow_id" FlowId.toJson s.lastSubmittedFlow ++
    memberIfSome "last_submitted_at" Moment.toJson s.lastSubmittedAt)

def ofJson? (v : Json) : Option UserState := do
  let r ← v.record? ["workspace_id", "user_id", "current_flow_id", "current_step_id",
    "completed_flow_ids", "skipped_flow_ids", "last_submitted_flow_id", "last_submitted_at"]
  return {
    workspace := ← r.required "workspace_id" text?
    user := ← r.required "user_id" text?
    currentFlow := ← r.optional "current_flow_id" FlowId.ofJson?
    currentStep := ← r.optional "current_step_id" text?
    completed := ← r.defaulting "completed_flow_ids" .empty FlowIdSet.ofJson?
    skipped := ← r.defaulting "skipped_flow_ids" .empty FlowIdSet.ofJson?
    lastSubmittedFlow := ← r.optional "last_submitted_flow_id" FlowId.ofJson?
    lastSubmittedAt := ← r.optional "last_submitted_at" Moment.ofJson? }

end UserState

namespace EventKind

def name : EventKind → String
  | .helperClick => "helper_click"
  | .helperHover => "helper_hover"
  | .helperClose => "helper_close"
  | .flowStepStart => "flow_step_start"
  | .flowStepFinish => "flow_step_finish"
  | .flowSkipped => "flow_skipped"
  | .flowFinished => "flow_finished"

def toJson (k : EventKind) : Json := .text k.name

def ofJson? : Json → Option EventKind :=
  name? [("helper_click", .helperClick), ("helper_hover", .helperHover),
    ("helper_close", .helperClose), ("flow_step_start", .flowStepStart),
    ("flow_step_finish", .flowStepFinish), ("flow_skipped", .flowSkipped),
    ("flow_finished", .flowFinished)]

end EventKind

namespace TrackedEvent

def toJson (e : TrackedEvent) : Json :=
  .object [("workspace_id", .text e.workspace), ("user_id", .text e.user),
    ("entity_id", .text e.entity), ("event_type", e.kind.toJson),
    ("timestamp", ofInt64 e.timestamp), ("metadata", e.metadata.toJson .text)]

def ofJson? (v : Json) : Option TrackedEvent := do
  let r ← v.record? ["workspace_id", "user_id", "entity_id", "event_type", "timestamp",
    "metadata"]
  return {
    workspace := ← r.defaulting "workspace_id" "" text?
    user := ← r.defaulting "user_id" "" text?
    entity := ← r.required "entity_id" text?
    kind := ← r.required "event_type" EventKind.ofJson?
    timestamp := ← r.required "timestamp" int64?
    metadata := ← r.defaulting "metadata" .empty (Dictionary.ofJson? text?) }

end TrackedEvent

namespace EnrollmentOpts

def toJson (o : EnrollmentOpts) : Json :=
  .object [("skipped_ids", Json.ofList .text o.skippedIds),
    ("finished_ids", Json.ofList .text o.finishedIds),
    ("current_enrollment_id", orNull .text o.currentEnrollmentId),
    ("sign_up_timestamp", orNull ofInt64 o.signUpTimestamp),
    ("user_segment", orNull .text o.userSegment), ("user_id", orNull .text o.userId)]

def ofJson? (v : Json) : Option EnrollmentOpts := do
  let r ← v.record? ["skipped_ids", "finished_ids", "current_enrollment_id",
    "sign_up_timestamp", "user_segment", "user_id"]
  return {
    skippedIds := ← r.defaulting "skipped_ids" [] (list? text?)
    finishedIds := ← r.defaulting "finished_ids" [] (list? text?)
    currentEnrollmentId := ← r.optional "current_enrollment_id" text?
    signUpTimestamp := ← r.optional "sign_up_timestamp" int64?
    userSegment := ← r.optional "user_segment" text?
    userId := ← r.optional "user_id" text? }

end EnrollmentOpts

namespace UserProfile

def toJson (p : UserProfile) : Json :=
  .object [("external_id", .text p.externalId),
    ("sign_up_timestamp", orNull ofInt64 p.signUpTimestamp),
    ("segment", orNull .text p.segment)]

def ofJson? (v : Json) : Option UserProfile := do
  let r ← v.record? ["external_id", "sign_up_timestamp", "segment"]
  return {
    externalId := ← r.required "external_id" text?
    signUpTimestamp := ← r.optional "sign_up_timestamp" int64?
    segment := ← r.optional "segment" text? }

end UserProfile

namespace ProgressReport

def toJson (p : ProgressReport) : Json :=
  .object [("flow_id", .text p.flowId), ("current_step_id", orNull .text p.currentStepId),
    ("finished", .bool p.finished), ("skipped", .bool p.skipped)]

def ofJson? (v : Json) : Option ProgressReport := do
  let r ← v.record? ["flow_id", "current_step_id", "finished", "skipped"]
  return {
    flowId := ← r.defaulting "flow_id" "" text?
    currentStepId := ← r.optional "current_step_id" text?
    finished := ← r.defaulting "finished" false bool?
    skipped := ← r.defaulting "skipped" false bool? }

end ProgressReport

namespace FlowAnalytics

def toJson (a : FlowAnalytics) : Json :=
  .object [("flow_id", a.flow.toJson), ("views", ofUInt64 a.views),
    ("avg_step_time", a.averageStepTime.toJson ofInt64),
    ("avg_total_time", ofInt64 a.averageTotalTime), ("finished", ofUInt64 a.finished),
    ("skipped", ofUInt64 a.skipped)]

def ofJson? (v : Json) : Option FlowAnalytics := do
  let r ← v.record? ["flow_id", "views", "avg_step_time", "avg_total_time", "finished",
    "skipped"]
  return {
    flow := ← r.required "flow_id" FlowId.ofJson?
    views := ← r.required "views" uint64?
    averageStepTime := ← r.required "avg_step_time" (Dictionary.ofJson? int64?)
    averageTotalTime := ← r.required "avg_total_time" int64?
    finished := ← r.required "finished" uint64?
    skipped := ← r.required "skipped" uint64? }

end FlowAnalytics

end GuidedTours
