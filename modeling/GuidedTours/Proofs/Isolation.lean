import GuidedTours.Proofs.Editor.Revise
import GuidedTours.Proofs.Enrollment.Users
import GuidedTours.Proofs.Store.Parts
import GuidedTours.Session

/-!
Workspaces do not see each other. Every request to an editor or to the enrollment names a workspace;
it is confined to the part of the store that belongs to it, so in a session the answers to all
requests that name a workspace are what they are without all the others.
-/

set_option autoImplicit false

namespace GuidedTours

open Enrollment

variable {σ : Type} [Store σ] [Parted σ] [Partitioned σ] {s : σ} {workspace user : String}

namespace Editor

theorem get_part (workspace flowId : String) (s : σ) :
    get workspace flowId (part workspace s) = get workspace flowId s := by
  unfold get
  refine bind_congr fun id ↦ ?_
  rw [Partitioned.getFlow_part]

theorem workspace_of_get {flowId : String} {f : Flow} (hs : Parted.Sound s)
    (h : get workspace flowId s = .ok f) : f.workspace = workspace := by
  obtain ⟨id, -, hload⟩ := get_eq_ok_iff.mp h
  exact Partitioned.workspace_getFlow hs hload

theorem confined_create {input : FlowUpdate} {id : FlowId} {now : Moment}
    (hs : Parted.Sound s) (hnew : id ∉ Parted.ids s) :
    Confined workspace [id] s (create workspace input id now) := by
  unfold create
  cases hflow : newFlow workspace input id now with
  | error e => exact .answer hs _
  | ok f =>
    obtain ⟨rfl, rfl, -⟩ := newFlow_keeps hflow
    exact (Partitioned.insertFlow hs hnew).map fun answer ↦ (fromStore answer).map fun _ ↦ f

theorem confined_save {config : EditorConfig} {edit : Edit} {loaded : Flow} (hs : Parted.Sound s)
    (hloaded : loaded.workspace = workspace) :
    Confined workspace [] s (save config edit loaded) := by
  unfold save
  cases hrevised : edit.revise config loaded with
  | error e => exact .answer hs _
  | ok revised =>
    obtain rfl : revised.workspace = workspace :=
      (Edit.revise_keeps hrevised).2.1.trans hloaded
    exact (Partitioned.saveFlow hs revised (edit.expectedRevision config loaded)).map fun answer ↦
      (fromStore answer).map fun revision ↦ { revised with revision }

theorem confined_edit {config : EditorConfig} {flowId : String} {change : Edit}
    (hs : Parted.Sound s) : Confined workspace [] s (edit config workspace flowId change) := by
  have hload := get_part workspace flowId s
  refine .of_read (g := fun answer s ↦ Except.casesOn answer (fun e ↦ (.error e, s))
    fun loaded ↦ save config change loaded s) (Editor.get workspace flowId) hload (fun t ↦ ?_) ?_
  · unfold edit
    cases Editor.get workspace flowId t <;> rfl
  · cases hget : Editor.get workspace flowId s with
    | error e => exact .answer hs _
    | ok loaded => exact confined_save hs (workspace_of_get hs hget)

theorem confined_archive {flowId : String} (hs : Parted.Sound s) :
    Confined workspace [] s (archive workspace flowId) := by
  unfold archive
  cases parseFlowId flowId with
  | error e => exact .answer hs _
  | ok id => exact (Partitioned.archiveFlow hs workspace id).map fromStore

theorem confined_restore {flowId : String} (hs : Parted.Sound s) :
    Confined workspace [] s (restore workspace flowId) := by
  unfold restore
  cases parseFlowId flowId with
  | error e => exact .answer hs _
  | ok id => exact (Partitioned.restoreFlow hs workspace id).map fromStore

end Editor

/-- The id that a request gives to a new flow. -/
def EditorRequest.created? : EditorRequest → Option FlowId
  | .create _ id _ => some id
  | _ => none

theorem EditorRequest.confined {r : EditorRequest} {config : EditorConfig} (hs : Parted.Sound s)
    (hnew : ∀ id, r.created? = some id → id ∉ Parted.ids s) :
    Confined workspace r.created?.toList s fun s ↦ r.perform config workspace s := by
  cases r with
  | create input id now =>
    simp only [perform]
    exact (Editor.confined_create hs (hnew id rfl)).map (Except.map EditorAnswer.flow)
  | edit flowId change =>
    simp only [perform]
    exact (Editor.confined_edit hs).map (Except.map EditorAnswer.flow)
  | archive flowId =>
    simp only [perform]
    exact (Editor.confined_archive hs).map (Except.map fun _ ↦ EditorAnswer.done)
  | restore flowId =>
    simp only [perform]
    exact (Editor.confined_restore hs).map (Except.map fun _ ↦ EditorAnswer.done)
  | get flowId =>
    refine confined_get hs ?_
    rw [Editor.get_part]
  | list =>
    refine confined_get hs ?_
    simp only [Editor.list, Partitioned.listFlows_part]
  | listArchived =>
    refine confined_get hs ?_
    simp only [Editor.listArchived, Partitioned.listArchivedFlows_part]
  | dependencyCandidates flowId =>
    refine confined_get hs ?_
    simp only [Editor.dependencyCandidates, Partitioned.listFlows_part]
  | rootStep flowId =>
    refine confined_get hs ?_
    simp only [Editor.rootStep, Editor.get_part]
  | childStep parent segment flowId =>
    refine confined_get hs ?_
    simp only [Editor.childStep, Editor.get_part]

namespace Enrollment

theorem liveFlow_part (workspace flowId : String) (s : σ) :
    liveFlow workspace flowId (part workspace s) = liveFlow workspace flowId s := by
  unfold liveFlow
  refine bind_congr fun id ↦ ?_
  rw [Partitioned.getFlow_part]

theorem resolve_part (workspace : String) (opts : EnrollmentOpts) (now : Moment) (s : σ) :
    resolve workspace opts now (part workspace s) = resolve workspace opts now s := by
  unfold resolve
  rw [Partitioned.listLiveFlows_part]
  simp only [liveFlow_part]

theorem analytics_part (workspace flowId : String) (s : σ) :
    analytics workspace flowId (part workspace s) = analytics workspace flowId s := by
  unfold analytics
  simp only [Partitioned.getFlow_part, Partitioned.listEvents_part]

theorem stateOrNew_part (workspace user : String) (s : σ) :
    stateOrNew workspace user (part workspace s) = stateOrNew workspace user s := by
  unfold stateOrNew
  rw [Partitioned.getUserState_part]

variable {α : Type}

theorem confined_put {state : UserState} (hs : Parted.Sound s)
    (hstate : state.isOf workspace user) (answer : α) :
    Confined workspace [] s fun s ↦ (answer, Store.putUserState state s) := by
  obtain ⟨rfl, -⟩ := UserState.isOf_iff.mp hstate
  exact (Partitioned.putUserState hs state).map fun _ ↦ answer

variable [UserRecords σ]

/-- An enrollment when it is known what state is stored and what is chosen. -/
def enrollFound (workspace user : String) (stored : Option UserState)
    (chosen : Except EnrollError (Option Flow)) (s : σ) : Except EnrollError (Option Flow) × σ :=
  let state := stored.getD { workspace, user }
  match chosen with
  | .error e => (.error e, s)
  | .ok selected =>
    (.ok selected,
      if (enrolled selected state).currentFlow ≠ state.currentFlow ∨ stored.isNone then
        Store.putUserState (enrolled selected state) s
      else s)

omit [Parted σ] [Partitioned σ] [UserRecords σ] in
theorem enroll_eq_enrollFound (workspace : String) (profile : UserProfile) (now : Moment) (s : σ) :
    enroll workspace profile now s =
      enrollFound workspace profile.externalId
        (Store.getUserState workspace profile.externalId s)
        (resolve workspace (.ofState (stateOrNew workspace profile.externalId s) profile) now s)
        s := by
  cases h : resolve workspace (.ofState (stateOrNew workspace profile.externalId s) profile) now s
  · simp only [enroll, enrollFound, h]
  · simp only [enroll, enrollFound, h]
    rfl

theorem confined_enroll {profile : UserProfile} {now : Moment} (hs : Parted.Sound s) :
    Confined workspace [] s (enroll workspace profile now) := by
  let found (t : σ) := (Store.getUserState workspace profile.externalId t,
    resolve workspace (.ofState (stateOrNew workspace profile.externalId t) profile) now t)
  have hfound : found (part workspace s) = found s := by
    simp only [found, Partitioned.getUserState_part, stateOrNew_part, resolve_part]
  refine .of_read (g := fun read ↦ enrollFound workspace profile.externalId read.1 read.2)
    found hfound (enroll_eq_enrollFound workspace profile now) ?_
  show Confined workspace [] s fun t ↦
    enrollFound workspace profile.externalId (found s).1 (found s).2 t
  cases (found s).2 with
  | error e =>
    simp only [enrollFound]
    exact .answer hs _
  | ok selected =>
    simp only [enrollFound]
    split
    next => exact confined_put hs (isOf_enrolled selected workspace profile.externalId s) _
    next => exact .answer hs _

theorem confined_report {r : ProgressReport} {now : Moment} (hs : Parted.Sound s) :
    Confined workspace [] s (report workspace user r now) := by
  unfold report
  split
  next => exact .answer hs _
  next =>
    cases outcome? r with
    | error e => exact .answer hs _
    | ok outcome =>
      refine .of_read (g := fun state s ↦ (.ok (some (progress r outcome now state)),
        Store.putUserState (progress r outcome now state) s)) (stateOrNew workspace user)
        (stateOrNew_part workspace user s) (fun _ ↦ rfl) ?_
      exact confined_put hs (isOf_progress_stateOrNew r outcome now workspace user s) _

theorem confined_reset (hs : Parted.Sound s) (answer : α) :
    Confined workspace [] s fun s ↦ (answer, reset workspace user s) := by
  refine .of_read (g := fun stored s ↦
      (answer, stored.elim s fun state ↦ Store.putUserState state.reset s))
    (Store.getUserState workspace user) (Partitioned.getUserState_part workspace user s)
    (fun t ↦ ?_) ?_
  · unfold reset
    cases Store.getUserState workspace user t <;> rfl
  · cases hstored : Store.getUserState workspace user s with
    | none => exact .answer hs answer
    | some state =>
      have hold : state.isOf workspace user := UserRecords.isOf_getUserState hstored
      have hnew : state.reset.isOf workspace user := hold
      exact confined_put hs hnew answer

omit [UserRecords σ] in
theorem confined_trackEvents {events : List TrackedEvent} (hs : Parted.Sound s) (answer : α) :
    Confined workspace [] s fun s ↦ (answer, trackEvents workspace user events s) := by
  unfold trackEvents
  split
  next => exact .answer hs answer
  next =>
    refine (Partitioned.recordEvents hs fun e he ↦ ?_).map fun _ ↦ answer
    obtain ⟨event, -, rfl⟩ := List.mem_map.mp he
    rfl

end Enrollment

theorem EnrollmentRequest.confined [UserRecords σ] {r : EnrollmentRequest} (hs : Parted.Sound s) :
    Confined workspace [] s fun s ↦ r.perform workspace s := by
  cases r with
  | resolve opts now =>
    refine confined_get hs ?_
    rw [resolve_part]
  | liveFlow flowId =>
    refine confined_get hs ?_
    rw [liveFlow_part]
  | state user =>
    refine confined_get hs ?_
    rw [Partitioned.getUserState_part]
  | enroll profile now =>
    simp only [perform]
    exact (confined_enroll hs).map (Except.map EnrollmentAnswer.flow)
  | report user progress now =>
    simp only [perform]
    exact (confined_report hs).map (Except.map EnrollmentAnswer.userState)
  | reset user => exact confined_reset hs _
  | trackEvents user events => exact confined_trackEvents hs _
  | analytics flowId =>
    refine confined_get hs ?_
    rw [analytics_part]

namespace Request

/-- The workspace that the request names, unless it is one to the store. -/
def workspace? : Request → Option String
  | .store _ => none
  | .editor _ workspace _ => some workspace
  | .enrollment workspace _ => some workspace

/-- The request names the workspace. -/
def names (workspace : String) (r : Request) : Bool := r.workspace? = some workspace

/-- The id that a request gives to a new flow. -/
def created? : Request → Option FlowId
  | .editor _ _ request => request.created?
  | _ => none

theorem confined [UserRecords σ] {r : Request} (hworkspace : r.workspace? = some workspace)
    (hs : Parted.Sound s) (hnew : ∀ id, r.created? = some id → id ∉ Parted.ids s) :
    Confined workspace r.created?.toList s fun s ↦ r.perform s := by
  cases r with
  | store request => nomatch hworkspace
  | editor config asked request =>
    obtain rfl := Option.some.inj hworkspace
    simp only [perform, Prod.map, id]
    exact (EditorRequest.confined hs hnew).map Answer.editor
  | enrollment asked request =>
    obtain rfl := Option.some.inj hworkspace
    simp only [perform, Prod.map, id]
    exact (EnrollmentRequest.confined hs).map Answer.enrollment

end Request

namespace Session

/-- The answers to those requests of a session that name a workspace. -/
def answersTo (workspace : String) (s : σ) (requests : List Request) : List Answer :=
  ((requests.zip (run s requests).1).filter fun x ↦ x.1.names workspace).map Prod.snd

variable {r : Request} {requests rest : List Request}

omit [Parted σ] [Partitioned σ] in
theorem answersTo_cons : answersTo workspace s (r :: rest) =
    if r.names workspace then (r.perform s).1 :: answersTo workspace (r.perform s).2 rest
    else answersTo workspace (r.perform s).2 rest := by
  unfold answersTo
  simp only [run, List.zip_cons_cons, List.filter_cons]
  split <;> rfl

omit [Parted σ] [Partitioned σ] in
/-- Without the requests that name another workspace these are all answers. -/
theorem answersTo_filter (workspace : String) (s : σ) (requests : List Request) :
    answersTo workspace s (requests.filter (·.names workspace)) =
      (run s (requests.filter (·.names workspace))).1 := by
  induction requests generalizing s with
  | nil => rfl
  | cons r rest ih =>
    by_cases hnames : r.names workspace
    · rw [List.filter_cons_of_pos hnames, answersTo_cons, if_pos hnames, ih]
      rfl
    · rw [List.filter_cons_of_neg hnames, ih]

/-- The requests go to editors and to the enrollment, and each new flow gets an id of its own that
is not in the store. -/
structure Separable (s : σ) (requests : List Request) : Prop where
  services : ∀ r ∈ requests, r.workspace?.isSome
  distinct : (requests.filterMap Request.created?).Nodup
  fresh : ∀ id ∈ requests.filterMap Request.created?, id ∉ Parted.ids s

namespace Separable

omit [Store σ] [Partitioned σ] in
theorem filter (h : Separable s requests) (p : Request → Bool) :
    Separable s (requests.filter p) where
  services r hr := h.services r (List.mem_of_mem_filter hr)
  distinct := h.distinct.sublist (List.filter_sublist.filterMap _)
  fresh id hid := h.fresh id ((List.filter_sublist.filterMap _).subset hid)

variable [UserRecords σ]

theorem confined (h : Separable s (r :: rest)) (hs : Parted.Sound s) :
    ∃ workspace, r.workspace? = some workspace ∧
      Confined workspace r.created?.toList s fun s ↦ r.perform s := by
  obtain ⟨workspace, hworkspace⟩ :=
    Option.isSome_iff_exists.mp (h.services r List.mem_cons_self)
  refine ⟨workspace, hworkspace, r.confined hworkspace hs fun id hid ↦ h.fresh id ?_⟩
  exact List.mem_filterMap.mpr ⟨r, List.mem_cons_self, hid⟩

theorem tail (h : Separable s (r :: rest)) (hs : Parted.Sound s) :
    Separable (r.perform s).2 rest := by
  have hcreated : (r :: rest).filterMap Request.created? =
      r.created?.toList ++ rest.filterMap Request.created? := by
    cases hr : r.created? <;> simp [hr]
  obtain ⟨workspace, -, hconfined⟩ := h.confined hs
  have hdistinct := h.distinct
  have hfresh := h.fresh
  rw [hcreated] at hdistinct hfresh
  obtain ⟨-, hlater, hdisjoint⟩ := List.nodup_append.mp hdistinct
  refine ⟨fun r' hr' ↦ h.services r' (List.mem_cons_of_mem r hr'), hlater, fun id hid hmem ↦ ?_⟩
  rcases List.mem_append.mp (hconfined.ids hmem) with hnew | hold
  · exact hdisjoint id hnew id hid rfl
  · exact hfresh id (List.mem_append_right _ hid) hold

end Separable

variable [UserRecords σ]

/-- The part of a workspace goes through a session as if it were all there is. -/
theorem run_part (workspace : String) (hs : Parted.Sound s) (h : Separable s requests) :
    run (part workspace s) (requests.filter (·.names workspace)) =
      (answersTo workspace s requests, part workspace (after s requests)) := by
  induction requests generalizing s with
  | nil => rfl
  | cons r rest ih =>
    obtain ⟨asked, hasked, hconfined⟩ := h.confined hs
    have hrest := ih hconfined.sound (h.tail hs)
    rw [answersTo_cons]
    by_cases hsame : asked = workspace
    · have hnames : r.names workspace := by simp [Request.names, hasked, hsame]
      subst hsame
      rw [List.filter_cons_of_pos hnames, if_pos hnames]
      simp only [run, hconfined.within, hrest]
      rfl
    · -- A request to another workspace leaves the part alone, and the run goes on from there.
      have hnames : ¬ r.names workspace := by simp [Request.names, hasked, hsame]
      rw [List.filter_cons_of_neg hnames, if_neg hnames,
        ← hconfined.without workspace (Ne.symm hsame)]
      exact hrest

/-- Both sessions are those of the part of the workspace. -/
theorem answersTo_eq (workspace : String) (hs : Parted.Sound s) (h : Separable s requests) :
    answersTo workspace s requests = (run s (requests.filter (·.names workspace))).1 := by
  have hall := run_part workspace hs h
  have hown := run_part workspace hs (h.filter (·.names workspace))
  rw [List.filter_filter] at hown
  simp only [Bool.and_self, hall, answersTo_filter] at hown
  exact (Prod.mk.inj hown).1

end Session

/-- In a session of editors and the enrollment, deleting all requests that name other workspaces
changes no answer to the remaining ones. -/
theorem workspaces_are_isolated {requests : List Request}
    (hservices : ∀ r ∈ requests, r.workspace?.isSome)
    (hdistinct : (requests.filterMap Request.created?).Nodup) (workspace : String) :
    (∀ s : ListStore, (∀ id ∈ requests.filterMap Request.created?, id ∉ s.ids) →
      Session.answersTo workspace s requests =
        (Session.run s (requests.filter (·.names workspace))).1) ∧
    ∀ s : TableStore, s.Apart → (∀ id ∈ requests.filterMap Request.created?, id ∉ s.ids) →
      Session.answersTo workspace s requests =
        (Session.run s (requests.filter (·.names workspace))).1 :=
  ⟨fun _ hfresh ↦ Session.answersTo_eq workspace trivial ⟨hservices, hdistinct, hfresh⟩,
    fun _ hs hfresh ↦ Session.answersTo_eq workspace hs ⟨hservices, hdistinct, hfresh⟩⟩

/-- Somebody else tries to archive a flow, and enrolls and resets a user of the same name. -/
def neighbours : List Request := [
  .editor {} "w" (.create { name := some "Draft", baseUrl := some "/" } Desk.draft.id
    Desk.draft.createdAt),
  .editor {} "v" (.archive Desk.draft.id.text),
  .editor {} "w" (.edit Desk.draft.id.text (.setLive true)),
  .enrollment "v" (.enroll { externalId := "u" } Desk.draft.createdAt),
  .enrollment "w" (.enroll { externalId := "u" } Desk.draft.createdAt),
  .enrollment "v" (.reset "u"),
  .enrollment "w" (.state "u")]

theorem workspaces_are_isolated_neighbours :
    (∀ r ∈ neighbours, r.workspace?.isSome) ∧
    (neighbours.filterMap Request.created?).Nodup ∧
    (neighbours.filter (·.names "w")).length = 4 ∧
    Session.answersTo "w" (Store.empty : ListStore) neighbours =
      (Session.run (Store.empty : ListStore) (neighbours.filter (·.names "w"))).1 ∧
    Session.answersTo "w" (Store.empty : TableStore) neighbours =
      (Session.run (Store.empty : TableStore) (neighbours.filter (·.names "w"))).1 := by
  have hservices : ∀ r ∈ neighbours, r.workspace?.isSome := by
    simp [neighbours, Request.workspace?]
  have hdistinct : (neighbours.filterMap Request.created?).Nodup := by decide
  obtain ⟨ofLists, ofTables⟩ := workspaces_are_isolated hservices hdistinct "w"
  exact ⟨hservices, hdistinct, by decide, ofLists _ fun _ _ ↦ List.not_mem_nil,
    ofTables _ TableStore.Apart.empty fun _ _ ↦ List.not_mem_nil⟩

end GuidedTours
