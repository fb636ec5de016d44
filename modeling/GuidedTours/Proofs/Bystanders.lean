import GuidedTours.Proofs.Enrollment.Users
import GuidedTours.Proofs.Store.UserLists

/-!
What has nothing to do with user states: all that editors do, and in the enrollment the search for a
flow, the tracking of events and their evaluation.
-/

set_option autoImplicit false

namespace GuidedTours

variable {σ : Type} [Store σ] [UserList σ] [DetachedUsers σ]

namespace Editor

theorem get_withUsers (workspace flowId : String) (others : List UserState) (s : σ) :
    get workspace flowId (withUsers others s) = get workspace flowId s := by
  unfold get
  refine bind_congr fun id ↦ ?_
  rw [DetachedUsers.getFlow_withUsers]

theorem ignores_create (workspace : String) (input : FlowUpdate) (id : FlowId) (now : Moment) :
    Ignores (σ := σ) (create workspace input id now) := by
  unfold create
  cases newFlow workspace input id now with
  | error e => exact ignores_answer _
  | ok f => exact (DetachedUsers.insertFlow f).map fun answer ↦ (fromStore answer).map fun _ ↦ f

theorem ignores_save (config : EditorConfig) (edit : Edit) (loaded : Flow) :
    Ignores (σ := σ) (save config edit loaded) := by
  unfold save
  cases edit.revise config loaded with
  | error e => exact ignores_answer _
  | ok revised =>
    have hsave := DetachedUsers.saveFlow (σ := σ) revised (edit.expectedRevision config loaded)
    exact hsave.map fun answer ↦ (fromStore answer).map fun revision ↦ { revised with revision }

theorem ignores_edit (config : EditorConfig) (workspace flowId : String) (change : Edit) :
    Ignores (σ := σ) (edit config workspace flowId change) := by
  refine .of_read (g := fun answer s ↦ Except.casesOn answer (fun e ↦ (.error e, s))
    fun loaded ↦ save config change loaded s) (Editor.get workspace flowId)
    (get_withUsers workspace flowId) (fun s ↦ ?_) fun found ↦ ?_
  · unfold edit
    cases Editor.get workspace flowId s <;> rfl
  · cases found with
    | error e => exact ignores_answer _
    | ok loaded => exact ignores_save config change loaded

theorem ignores_archive (workspace flowId : String) :
    Ignores (σ := σ) (archive workspace flowId) := by
  unfold archive
  cases parseFlowId flowId with
  | error e => exact ignores_answer _
  | ok id => exact (DetachedUsers.archiveFlow workspace id).map fromStore

theorem ignores_restore (workspace flowId : String) :
    Ignores (σ := σ) (restore workspace flowId) := by
  unfold restore
  cases parseFlowId flowId with
  | error e => exact ignores_answer _
  | ok id => exact (DetachedUsers.restoreFlow workspace id).map fromStore

end Editor

theorem EditorRequest.ignores (r : EditorRequest) (config : EditorConfig) (workspace : String) :
    Ignores fun s : σ ↦ r.perform config workspace s := by
  cases r with
  | create input id now =>
    simp only [perform]
    exact (Editor.ignores_create workspace input id now).map (Except.map EditorAnswer.flow)
  | edit flowId change =>
    simp only [perform]
    exact (Editor.ignores_edit config workspace flowId change).map (Except.map EditorAnswer.flow)
  | archive flowId =>
    simp only [perform]
    exact (Editor.ignores_archive workspace flowId).map (Except.map fun _ ↦ EditorAnswer.done)
  | restore flowId =>
    simp only [perform]
    exact (Editor.ignores_restore workspace flowId).map (Except.map fun _ ↦ EditorAnswer.done)
  | get flowId =>
    refine ignores_get fun others s ↦ ?_
    rw [Editor.get_withUsers]
  | list =>
    refine ignores_get fun others s ↦ ?_
    simp only [Editor.list, DetachedUsers.listFlows_withUsers]
  | listArchived =>
    refine ignores_get fun others s ↦ ?_
    simp only [Editor.listArchived, DetachedUsers.listArchivedFlows_withUsers]
  | dependencyCandidates flowId =>
    refine ignores_get fun others s ↦ ?_
    simp only [Editor.dependencyCandidates, DetachedUsers.listFlows_withUsers]
  | rootStep flowId =>
    refine ignores_get fun others s ↦ ?_
    simp only [Editor.rootStep, Editor.get_withUsers]
  | childStep parent segment flowId =>
    refine ignores_get fun others s ↦ ?_
    simp only [Editor.childStep, Editor.get_withUsers]

theorem StoreRequest.ignores {r : StoreRequest}
    (hget : ∀ workspace user, r ≠ .getUserState workspace user)
    (hput : ∀ state, r ≠ .putUserState state) : Ignores fun s : σ ↦ r.perform s := by
  cases r with
  | insertFlow flow =>
    simp only [perform]
    exact (DetachedUsers.insertFlow flow).map (Except.map fun _ ↦ StoreAnswer.done)
  | saveFlow flow expected =>
    simp only [perform]
    exact (DetachedUsers.saveFlow flow expected).map (Except.map StoreAnswer.revision)
  | archiveFlow workspace id =>
    simp only [perform]
    exact (DetachedUsers.archiveFlow workspace id).map (Except.map fun _ ↦ StoreAnswer.done)
  | restoreFlow workspace id =>
    simp only [perform]
    exact (DetachedUsers.restoreFlow workspace id).map (Except.map fun _ ↦ StoreAnswer.done)
  | recordEvents events =>
    exact (DetachedUsers.recordEvents events).map fun _ ↦ Except.ok StoreAnswer.done
  | getFlow workspace id =>
    refine ignores_get fun others s ↦ ?_
    rw [DetachedUsers.getFlow_withUsers]
  | listFlows workspace =>
    refine ignores_get fun others s ↦ ?_
    rw [DetachedUsers.listFlows_withUsers]
  | listLiveFlows workspace =>
    refine ignores_get fun others s ↦ ?_
    rw [DetachedUsers.listLiveFlows_withUsers]
  | listArchivedFlows workspace =>
    refine ignores_get fun others s ↦ ?_
    rw [DetachedUsers.listArchivedFlows_withUsers]
  | listEvents workspace id =>
    refine ignores_get fun others s ↦ ?_
    rw [DetachedUsers.listEvents_withUsers]
  | getUserState workspace user => exact absurd rfl (hget workspace user)
  | putUserState state => exact absurd rfl (hput state)

namespace Enrollment

theorem liveFlow_withUsers (workspace flowId : String) (others : List UserState) (s : σ) :
    liveFlow workspace flowId (withUsers others s) = liveFlow workspace flowId s := by
  unfold liveFlow
  refine bind_congr fun id ↦ ?_
  rw [DetachedUsers.getFlow_withUsers]

theorem resolve_withUsers (workspace : String) (opts : EnrollmentOpts) (now : Moment)
    (others : List UserState) (s : σ) :
    resolve workspace opts now (withUsers others s) = resolve workspace opts now s := by
  unfold resolve
  rw [DetachedUsers.listLiveFlows_withUsers]
  simp only [liveFlow_withUsers]

theorem analytics_withUsers (workspace flowId : String) (others : List UserState) (s : σ) :
    analytics workspace flowId (withUsers others s) = analytics workspace flowId s := by
  unfold analytics
  simp only [DetachedUsers.getFlow_withUsers, DetachedUsers.listEvents_withUsers]

theorem ignores_trackEvents (workspace user : String) (events : List TrackedEvent) :
    Ignores fun s : σ ↦ ((), trackEvents workspace user events s) := by
  unfold trackEvents
  split
  · exact ignores_answer ()
  · exact DetachedUsers.recordEvents _

end Enrollment

end GuidedTours
