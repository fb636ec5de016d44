import GuidedTours.Proofs.Enrollment.Analytics
import GuidedTours.Proofs.Sessions
import GuidedTours.Proofs.Store.Shelves
import GuidedTours.Proofs.Store.UserRecords

/-!
What is tracked. Every batch of events joins the record of the store as events of the user that it
is tracked for, and nothing else that happens in a session adds to the record or takes from it. So
the record is one list, in which the events of a user stand in the order in which they were tracked,
and the analytics of a flow follow from what each user did.
-/

set_option autoImplicit false

namespace GuidedTours

variable {workspace user : String} {id : FlowId} {requests requests' : List Request}

namespace TrackedEvent

/-- The event as one of a user, whatever workspace and user it carries. -/
def of (workspace user : String) (e : TrackedEvent) : TrackedEvent := { e with workspace, user }

def isOf (workspace user : String) (e : TrackedEvent) : Bool :=
  e.workspace = workspace && e.user = user

def isAbout (workspace : String) (id : FlowId) (e : TrackedEvent) : Bool :=
  e.workspace = workspace && e.entity = id.text

end TrackedEvent

/-- A store that keeps all events that are recorded, in the order of their recording. -/
class EventRecords (σ : Type) [Store σ] : Prop where
  listEvents_empty (workspace : String) (id : FlowId) :
    Store.listEvents workspace id (Store.empty : σ) = []
  listEvents_recordEvents (workspace : String) (id : FlowId) (events : List TrackedEvent) (s : σ) :
    Store.listEvents workspace id (Store.recordEvents events s) =
      Store.listEvents workspace id s ++ events.filter (·.isAbout workspace id)
  listEvents_putUserState (workspace : String) (id : FlowId) (state : UserState) (s : σ) :
    Store.listEvents workspace id (Store.putUserState state s) = Store.listEvents workspace id s
  listEvents_kept (workspace : String) (id : FlowId) (found : List TrackedEvent) :
    KeptByFlows fun s : σ ↦ Store.listEvents workspace id s = found

instance : EventRecords ListStore where
  listEvents_empty _ _ := rfl
  listEvents_recordEvents _ _ _ _ := List.filter_append _ _
  listEvents_putUserState _ _ _ _ := rfl
  listEvents_kept workspace id found :=
    ListStore.records_kept fun _ events ↦ events.filter (·.isAbout workspace id) = found

instance : EventRecords TableStore where
  listEvents_empty _ _ := rfl
  listEvents_recordEvents _ _ _ _ := List.filter_append _ _
  listEvents_putUserState _ _ _ _ := rfl
  listEvents_kept workspace id found :=
    TableStore.records_kept fun _ events ↦ events.filter (·.isAbout workspace id) = found

namespace Request

/-- The request records events only through tracking. -/
def RecordsNone (r : Request) : Prop := ∀ events, r ≠ .store (.recordEvents events)

/-- The events of a request as they are recorded. -/
def tracked : Request → List TrackedEvent
  | .enrollment workspace (.trackEvents user events) => events.map (.of workspace user)
  | _ => []

/-- The events that a request tracks for a user, apart from the workspace and user they carry. -/
def trackedBy (workspace user : String) : Request → List TrackedEvent
  | .enrollment asked (.trackEvents who events) =>
    if asked = workspace ∧ who = user then events.map (.of workspace user) else []
  | _ => []

theorem tracked_of_ne {r : Request}
    (h : ∀ asked who events, r ≠ .enrollment asked (.trackEvents who events)) : r.tracked = [] := by
  unfold tracked
  split
  next asked who events => exact absurd rfl (h asked who events)
  next => rfl

theorem filter_tracked (workspace user : String) (r : Request) :
    r.tracked.filter (·.isOf workspace user) = r.trackedBy workspace user := by
  unfold tracked
  split
  next asked who events =>
    rw [trackedBy]
    split
    next hsame =>
      obtain ⟨rfl, rfl⟩ := hsame
      exact List.filter_eq_self.mpr (by simp [TrackedEvent.isOf, TrackedEvent.of])
    next hother =>
      refine List.filter_eq_nil_iff.mpr fun e he ↦ ?_
      obtain ⟨e, -, rfl⟩ := List.mem_map.mp he
      rw [TrackedEvent.isOf, Bool.and_eq_true, decide_eq_true_iff, decide_eq_true_iff]
      exact hother
  next hnot =>
    unfold trackedBy
    split
    next asked who events => exact absurd rfl (hnot asked who events)
    next => rfl

end Request

namespace Session

/-- All that is tracked in a session, as it is recorded. -/
def tracked (requests : List Request) : List TrackedEvent := requests.flatMap Request.tracked

def trackedAbout (workspace : String) (id : FlowId) (requests : List Request) :
    List TrackedEvent :=
  (tracked requests).filter (·.isAbout workspace id)

/-- The batches of a user one after another. -/
def trackedBy (workspace user : String) (requests : List Request) : List TrackedEvent :=
  requests.flatMap (Request.trackedBy workspace user)

theorem filter_tracked (workspace user : String) (requests : List Request) :
    (tracked requests).filter (·.isOf workspace user) = trackedBy workspace user requests := by
  rw [tracked, List.filter_flatMap]
  exact congrArg (requests.flatMap ·) (funext (Request.filter_tracked workspace user))

/-- If every user tracks the same, then in both sessions every user does the same about a flow. -/
theorem trackedAbout_sameByUser
    (h : ∀ workspace user, trackedBy workspace user requests = trackedBy workspace user requests')
    (workspace : String) (id : FlowId) :
    TrackedEvent.SameByUser (trackedAbout workspace id requests)
      (trackedAbout workspace id requests') := by
  intro user
  have hfilter : ∀ events : List TrackedEvent,
      (events.filter (·.isAbout workspace id)).filter (·.user = user) =
        (events.filter (·.isOf workspace user)).filter (·.entity = id.text) := by
    intro events
    rw [List.filter_filter, List.filter_filter]
    refine List.filter_congr fun e _ ↦ ?_
    simp only [TrackedEvent.isAbout, TrackedEvent.isOf]
    grind
  rw [trackedAbout, trackedAbout, hfilter, hfilter, filter_tracked, filter_tracked, h]

end Session

section Runs

variable {σ : Type} [Store σ] [EventRecords σ] {s : σ}

theorem Enrollment.listEvents_trackEvents (workspace user : String) (events : List TrackedEvent)
    (s : σ) (asked : String) (id : FlowId) :
    Store.listEvents asked id (trackEvents workspace user events s) =
      Store.listEvents asked id s ++
        (events.map (.of workspace user)).filter (·.isAbout asked id) := by
  unfold trackEvents
  split
  next hempty =>
    rw [List.isEmpty_iff.mp hempty, List.map_nil, List.filter_nil, List.append_nil]
  next => exact EventRecords.listEvents_recordEvents asked id _ s

theorem Request.listEvents_perform {r : Request} (hr : r.RecordsNone) (workspace : String)
    (id : FlowId) (s : σ) :
    Store.listEvents workspace id (r.perform s).2 =
      Store.listEvents workspace id s ++ r.tracked.filter (·.isAbout workspace id) := by
  by_cases htrack : ∃ asked who events, r = .enrollment asked (.trackEvents who events)
  · obtain ⟨asked, who, events, rfl⟩ := htrack
    exact Enrollment.listEvents_trackEvents asked who events s workspace id
  · have hne : ∀ asked who events, r ≠ .enrollment asked (.trackEvents who events) :=
      fun asked who events heq ↦ htrack ⟨asked, who, events, heq⟩
    rw [tracked_of_ne hne, List.filter_nil, List.append_nil]
    have hflows := EventRecords.listEvents_kept (σ := σ) workspace id
      (Store.listEvents workspace id s)
    cases r with
    | store request =>
      refine StoreRequest.perform_keeps_of_records hflows
        (fun state _ ↦ EventRecords.listEvents_putUserState workspace id state s) ?_ rfl
      rintro events rfl
      exact absurd rfl (hr events)
    | editor config asked request =>
      exact EditorRequest.perform_keeps hflows rfl config asked request
    | enrollment asked request =>
      rcases request.perform_cases asked s with heq | ⟨state, heq⟩ | ⟨who, events, rfl⟩
      · exact congrArg _ heq
      · exact (congrArg _ heq).trans (EventRecords.listEvents_putUserState workspace id state s)
      · exact absurd rfl (hne asked who events)

theorem Session.listEvents_after (hrequests : ∀ r ∈ requests, r.RecordsNone) (workspace : String)
    (id : FlowId) (s : σ) :
    Store.listEvents workspace id (after s requests) =
      Store.listEvents workspace id s ++ trackedAbout workspace id requests := by
  induction requests generalizing s with
  | nil => exact (List.append_nil _).symm
  | cons r rest ih =>
    have hrest := ih (fun r' hr' ↦ hrequests r' (List.mem_cons_of_mem r hr')) (r.perform s).2
    have hboth : trackedAbout workspace id (r :: rest) =
        r.tracked.filter (·.isAbout workspace id) ++ trackedAbout workspace id rest := by
      rw [trackedAbout, tracked, List.flatMap_cons, List.filter_append]
      rfl
    rw [Request.listEvents_perform (hrequests r List.mem_cons_self), List.append_assoc,
      ← hboth] at hrest
    exact hrest

end Runs

section Analytics

variable {σ : Type} [Store σ] [Shelves σ] {s : σ}

theorem id_of_getFlow {f : Flow} (hs : Shelves.Sound s)
    (h : Store.getFlow workspace id s = .ok f) : f.id = id := by
  rcases Shelves.getFlow_cases hs workspace id with hget | ⟨-, hget⟩
  · rw [hget] at h
    cases hfind : (Shelves.shelf workspace s).find? (·.id = id) with
    | none => simp [hfind] at h
    | some g =>
      obtain rfl : g = f := by simpa [hfind] using h
      simpa using List.find?_some hfind
  · rw [hget] at h
    cases h

namespace Enrollment

theorem analytics_of_getFlow {raw : String} {f : Flow} (hs : Shelves.Sound s)
    (hid : FlowId.parseEntered? raw = some id) (h : Store.getFlow workspace id s = .ok f) :
    analytics workspace raw s = .ok (.ofEvents id (Store.listEvents workspace id s)) := by
  obtain rfl := id_of_getFlow hs h
  rw [analytics, parseFlowId_of_some hid, ok_bind, h]
  rfl

omit [Shelves σ] in
theorem analytics_of_error {raw : String} {e : StoreError}
    (hid : FlowId.parseEntered? raw = some id) (h : Store.getFlow workspace id s = .error e) :
    analytics workspace raw s = .error (.store e) := by
  rw [analytics, parseFlowId_of_some hid, ok_bind, h]
  rfl

end Enrollment

end Analytics

/-- After both sessions the analytics of a flow are those of the events that were tracked about it
in the first. -/
structure AnalyticsAgree (σ : Type) [Store σ] (requests requests' : List Request) : Prop where
  active : ∀ workspace raw id f f', FlowId.parseEntered? raw = some id →
    Store.getFlow workspace id (Session.after (Store.empty : σ) requests) = .ok f →
    Store.getFlow workspace id (Session.after (Store.empty : σ) requests') = .ok f' →
    let analytics := FlowAnalytics.ofEvents id (Session.trackedAbout workspace id requests)
    Enrollment.analytics workspace raw (Session.after (Store.empty : σ) requests) = .ok analytics ∧
      Enrollment.analytics workspace raw (Session.after (Store.empty : σ) requests') = .ok analytics
  /-- A flow that is not active, or that cannot be read, has none. -/
  unread : ∀ workspace raw id e, FlowId.parseEntered? raw = some id →
    Store.getFlow workspace id (Session.after (Store.empty : σ) requests) = .error e →
    Enrollment.analytics workspace raw (Session.after (Store.empty : σ) requests) =
      .error (.store e)

section Agreement

variable {σ : Type} [Store σ] [Shelves σ] [EventRecords σ]

theorem Session.analytics_after {raw : String} {f : Flow}
    (hrequests : ∀ r ∈ requests, r.RecordsNone) (hid : FlowId.parseEntered? raw = some id)
    (hget : Store.getFlow workspace id (after (Store.empty : σ) requests) = .ok f) :
    Enrollment.analytics workspace raw (after (Store.empty : σ) requests) =
      .ok (.ofEvents id (trackedAbout workspace id requests)) := by
  have hsound := after_keeps Shelves.sound_kept (Shelves.sound_empty (σ := σ)) requests
  rw [Enrollment.analytics_of_getFlow hsound hid hget, listEvents_after hrequests,
    EventRecords.listEvents_empty, List.nil_append]

theorem analyticsAgree (h : ∀ r ∈ requests, r.RecordsNone) (h' : ∀ r ∈ requests', r.RecordsNone)
    (hsame : ∀ workspace user, Session.trackedBy workspace user requests =
      Session.trackedBy workspace user requests') : AnalyticsAgree σ requests requests' where
  active workspace raw id f f' hid hget hget' := by
    refine ⟨Session.analytics_after h hid hget, ?_⟩
    rw [Session.analytics_after h' hid hget',
      FlowAnalytics.ofEvents_congr id (Session.trackedAbout_sameByUser hsame workspace id)]
  unread workspace raw id e hid hget := Enrollment.analytics_of_error hid hget

end Agreement

/-- Analytics depend only on what each user did, not on how it was cut into batches, on what other
users did in between, or on what became of the flow meanwhile. -/
theorem analytics_depend_on_users_alone (h : ∀ r ∈ requests, r.RecordsNone)
    (h' : ∀ r ∈ requests', r.RecordsNone)
    (hsame : ∀ workspace user, Session.trackedBy workspace user requests =
      Session.trackedBy workspace user requests') :
    AnalyticsAgree ListStore requests requests' ∧ AnalyticsAgree TableStore requests requests' :=
  ⟨analyticsAgree h h' hsame, analyticsAgree h h' hsame⟩

section Example

/-- An event of the first step of the draft, as a client sends it. -/
def clicked (kind : EventKind) (timestamp : Int64) : TrackedEvent :=
  TrackedEvent.withStep "intro" { entity := Desk.draft.id.text, kind, timestamp }

def tracking (user : String) (events : List TrackedEvent) : Request :=
  .enrollment "w" (.trackEvents user events)

/-- Two users go through a step, event by event. -/
def stepByStep : List Request := [
  .store (.insertFlow Desk.draft),
  tracking "u" [clicked .flowStepStart 100],
  tracking "v" [clicked .flowStepStart 110],
  tracking "v" [clicked .flowStepFinish 130],
  tracking "u" [clicked .flowStepFinish 160]]

/-- The same in larger batches, some of which claim to be of somebody else, while the flow is
published and moved to the archive and back. -/
def atOnce : List Request := [
  .store (.insertFlow Desk.draft),
  tracking "v" [{ clicked .flowStepStart 110 with user := "u" }, clicked .flowStepFinish 130],
  .editor {} "w" (.edit Desk.draft.id.text (.setLive true)),
  tracking "u" [],
  .editor {} "w" (.archive Desk.draft.id.text),
  tracking "u" [clicked .flowStepStart 100, { clicked .flowStepFinish 160 with workspace := "x" }],
  .editor {} "w" (.restore Desk.draft.id.text)]

theorem analytics_depend_on_users_alone_at_once :
    (∀ r ∈ stepByStep, r.RecordsNone) ∧ (∀ r ∈ atOnce, r.RecordsNone) ∧
      (∀ workspace user, Session.trackedBy workspace user stepByStep =
        Session.trackedBy workspace user atOnce) ∧
      AnalyticsAgree ListStore stepByStep atOnce ∧ AnalyticsAgree TableStore stepByStep atOnce ∧
      (FlowAnalytics.ofEvents Desk.draft.id
        (Session.trackedAbout "w" Desk.draft.id stepByStep)).averageTotalTime = 40 ∧
      ((Store.getFlow "w" Desk.draft.id (Session.after (Store.empty : TableStore) atOnce)).map
        Flow.live).toOption = some true := by
  have hstepByStep : ∀ r ∈ stepByStep, r.RecordsNone := by
    simp [stepByStep, tracking, Request.RecordsNone]
  have hatOnce : ∀ r ∈ atOnce, r.RecordsNone := by
    simp [atOnce, tracking, Request.RecordsNone]
  have hsame : ∀ workspace user, Session.trackedBy workspace user stepByStep =
      Session.trackedBy workspace user atOnce := by
    intro workspace user
    simp only [Session.trackedBy, stepByStep, atOnce, tracking, List.flatMap_cons,
      List.flatMap_nil, Request.trackedBy, List.map_cons, List.map_nil, ite_self,
      List.nil_append, List.append_nil]
    by_cases hu : "w" = workspace ∧ "u" = user
    · obtain ⟨rfl, rfl⟩ := hu
      rfl
    · rw [if_neg hu, if_neg hu, if_neg hu]
      by_cases hv : "w" = workspace ∧ "v" = user
      · obtain ⟨rfl, rfl⟩ := hv
        rfl
      · rw [if_neg hv, if_neg hv, if_neg hv]
        rfl
  obtain ⟨hlists, htables⟩ := analytics_depend_on_users_alone hstepByStep hatOnce hsame
  exact ⟨hstepByStep, hatOnce, hsame, hlists, htables, by decide +kernel, by decide +kernel⟩

end Example

end GuidedTours
