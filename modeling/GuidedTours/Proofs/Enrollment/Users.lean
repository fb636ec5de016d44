import GuidedTours.Proofs.Enrollment.Progress
import GuidedTours.Proofs.Store.UserRecords

/-!
What requests make of user states. The operations on flows and events leave them alone; enrolling,
reporting and resetting change the state of one user of one workspace.
-/

set_option autoImplicit false

namespace GuidedTours

open Enrollment

variable {σ : Type} [Store σ] {s : σ} {workspace user : String} {id : FlowId}

/-- Every stored state is consistent. -/
def ConsistentStates (s : σ) : Prop :=
  ∀ workspace user state, Store.getUserState workspace user s = some state → state.Consistent

theorem ConsistentStates.stateOrNew (h : ConsistentStates s) (workspace user : String) :
    (stateOrNew workspace user s).Consistent := by
  cases hstored : Store.getUserState workspace user s with
  | some state => exact (stateOrNew_of_some hstored).symm ▸ h workspace user state hstored
  | none =>
    rw [Enrollment.stateOrNew, hstored]
    exact UserState.consistent_new workspace user

variable [UserRecords σ]

theorem getUserState_put_self {state : UserState} (h : state.isOf workspace user) (s : σ) :
    Store.getUserState workspace user (Store.putUserState state s) = some state := by
  rw [UserRecords.getUserState_putUserState, if_pos h]

theorem putUserState_of_stored {state : UserState}
    (h : Store.getUserState workspace user s = some state) : Store.putUserState state s = s := by
  obtain ⟨hworkspace, huser⟩ := UserState.isOf_iff.mp (UserRecords.isOf_getUserState h)
  refine UserRecords.putUserState_of_get ?_
  rw [hworkspace, huser]
  exact h

theorem isOf_stateOrNew (workspace user : String) (s : σ) :
    (stateOrNew workspace user s).isOf workspace user := by
  cases h : Store.getUserState workspace user s with
  | some state => exact stateOrNew_of_some h ▸ UserRecords.isOf_getUserState h
  | none =>
    rw [stateOrNew, h]
    exact UserState.isOf_iff.mpr ⟨rfl, rfl⟩

theorem isOf_enrolled (selected : Option Flow) (workspace user : String) (s : σ) :
    (enrolled selected (stateOrNew workspace user s)).isOf workspace user := by
  cases selected <;> exact isOf_stateOrNew workspace user s

theorem isOf_progress_stateOrNew (r : ProgressReport) (outcome : Option FlowId) (now : Moment)
    (workspace user : String) (s : σ) :
    (progress r outcome now (stateOrNew workspace user s)).isOf workspace user := by
  rw [isOf_progress]
  exact isOf_stateOrNew workspace user s

theorem getUserState_enroll {profile : UserProfile} {now : Moment} {selected : Option Flow}
    (h : (enroll workspace profile now s).1 = .ok selected) :
    Store.getUserState workspace profile.externalId (enroll workspace profile now s).2 =
      some (enrolled selected (stateOrNew workspace profile.externalId s)) := by
  rcases enroll_of_ok h with heq | ⟨heq, hstored⟩
  · rw [heq]
    exact getUserState_put_self (isOf_enrolled selected workspace profile.externalId s) s
  · rw [heq]
    exact hstored

/-- Whether or not the state had to be put, the store is as if it had been. -/
theorem enroll_eq_put {profile : UserProfile} {now : Moment} {selected : Option Flow}
    (h : (enroll workspace profile now s).1 = .ok selected) :
    (enroll workspace profile now s).2 =
      Store.putUserState (enrolled selected (stateOrNew workspace profile.externalId s)) s := by
  rcases enroll_of_ok h with heq | ⟨heq, hstored⟩
  · exact heq
  · rw [heq, putUserState_of_stored hstored]

/-- What a request to the enrollment of a workspace makes of the state of a user. -/
inductive Advance (workspace user : String) (s : σ) : EnrollmentRequest → UserState → Prop
  | chosen {profile : UserProfile} {now : Moment} {selected : Option Flow}
    (huser : profile.externalId = user)
    (h : (enroll workspace profile now s).1 = .ok selected) :
    Advance workspace user s (.enroll profile now) (enrolled selected (stateOrNew workspace user s))
  | reported {r : ProgressReport} {now : Moment} {outcome : Option FlowId}
    (h : outcome? r = .ok outcome) :
    Advance workspace user s (.report user r now)
      (progress r outcome now (stateOrNew workspace user s))
  | forgotten (state : UserState) : Advance workspace user s (.reset user) state.reset

/-- Putting the state of a user leaves those of all others as they are. -/
theorem getUserState_put_advance {asked who : String} {r : EnrollmentRequest} {state : UserState}
    (hstate : state.isOf asked who) (h : Advance asked who s r state) (workspace user : String) :
    Store.getUserState workspace user (Store.putUserState state s) =
        Store.getUserState workspace user s ∨
      asked = workspace ∧ ∃ state', Advance workspace user s r state' ∧
        Store.getUserState workspace user (Store.putUserState state s) = some state' := by
  by_cases hsame : state.isOf workspace user
  · obtain ⟨rfl, rfl⟩ := UserState.isOf_iff.mp hstate
    obtain ⟨rfl, rfl⟩ := UserState.isOf_iff.mp hsame
    exact .inr ⟨rfl, state, h, getUserState_put_self hsame s⟩
  · rw [UserRecords.getUserState_putUserState, if_neg hsame]
    exact .inl rfl

theorem EnrollmentRequest.getUserState_perform (workspace user asked : String) (s : σ)
    (r : EnrollmentRequest) :
    Store.getUserState workspace user (r.perform asked s).2 = Store.getUserState workspace user s ∨
      asked = workspace ∧ ∃ state, Advance workspace user s r state ∧
        Store.getUserState workspace user (r.perform asked s).2 = some state := by
  cases r with
  | enroll profile now =>
    simp only [perform]
    cases h : (Enrollment.enroll asked profile now s).1 with
    | error e => exact .inl (congrArg _ (enroll_of_error h))
    | ok selected =>
      rcases enroll_of_ok h with heq | ⟨heq, -⟩
      · rw [heq]
        exact getUserState_put_advance (isOf_enrolled selected asked profile.externalId s)
          (.chosen rfl h) workspace user
      · exact .inl (congrArg _ heq)
  | report who progress now =>
    simp only [perform]
    rcases report_cases asked who progress now s with heq | ⟨outcome, houtcome, heq⟩
    · exact .inl (congrArg _ heq)
    · rw [heq]
      exact getUserState_put_advance (isOf_progress_stateOrNew progress outcome now asked who s)
        (.reported houtcome) workspace user
  | reset who =>
    simp only [perform]
    rcases reset_cases asked who s with ⟨-, heq⟩ | ⟨state, hstate, heq⟩
    · exact .inl (congrArg _ heq)
    · rw [heq]
      have hold : state.isOf asked who := UserRecords.isOf_getUserState hstate
      have hnew : state.reset.isOf asked who := hold
      exact getUserState_put_advance hnew (.forgotten state) workspace user
  | trackEvents who events =>
    simp only [perform]
    rcases trackEvents_cases asked who events s with heq | ⟨tracked, heq⟩
    · exact .inl (congrArg _ heq)
    · rw [heq]
      exact .inl (UserRecords.getUserState_recordEvents workspace user tracked s)
  | resolve _ _ | liveFlow _ | state _ | analytics _ => exact .inl rfl

/-- The request writes user states only through the enrollment. -/
def Request.PutsNone (r : Request) : Prop := ∀ state, r ≠ .store (.putUserState state)

theorem Request.getUserState_perform {r : Request} (hr : r.PutsNone) (workspace user : String)
    (s : σ) :
    Store.getUserState workspace user (r.perform s).2 = Store.getUserState workspace user s ∨
      ∃ request state, r = .enrollment workspace request ∧ Advance workspace user s request state ∧
        Store.getUserState workspace user (r.perform s).2 = some state := by
  have hflows := UserRecords.getUserState_kept (σ := σ) workspace user
    (Store.getUserState workspace user s)
  cases r with
  | store request =>
    refine .inl (StoreRequest.perform_keeps_of_records hflows ?_
      (fun events _ ↦ UserRecords.getUserState_recordEvents workspace user events s) rfl)
    rintro state rfl
    exact absurd rfl (hr state)
  | editor config asked request =>
    exact .inl (EditorRequest.perform_keeps hflows rfl config asked request)
  | enrollment asked request =>
    rcases request.getUserState_perform workspace user asked s with
      hsame | ⟨rfl, state, hadvance, hfound⟩
    · exact .inl hsame
    · exact .inr ⟨request, state, rfl, hadvance, hfound⟩

/-- The user has finished or skipped the flow and it is on record. -/
def HasConcluded (workspace user : String) (id : FlowId) (s : σ) : Prop :=
  ∃ state, Store.getUserState workspace user s = some state ∧ state.Concluded id

theorem hasConcluded_report {r : ProgressReport} {now : Moment} (h : outcome? r = .ok (some id)) :
    HasConcluded workspace user id (report workspace user r now s).2 := by
  rw [report_of_outcome h]
  refine ⟨_, getUserState_put_self
    (isOf_progress_stateOrNew r (some id) now workspace user s) s, ?_⟩
  exact concluded_progress_iff.mpr (.inr ⟨(outcome?_eq_some_iff.mp h).1, rfl⟩)

theorem HasConcluded.perform (h : HasConcluded workspace user id s) {r : Request}
    (hr : r.PutsNone) (hreset : r ≠ .enrollment workspace (.reset user)) :
    HasConcluded workspace user id (r.perform s).2 := by
  obtain ⟨state, hstate, hconcluded⟩ := h
  rcases r.getUserState_perform hr workspace user s with hsame | ⟨request, new, rfl, hadvance, hnew⟩
  · exact ⟨state, hsame.trans hstate, hconcluded⟩
  · refine ⟨new, hnew, ?_⟩
    cases hadvance with
    | @chosen profile now selected huser henroll =>
      rw [stateOrNew_of_some hstate]
      cases selected <;> exact hconcluded
    | reported houtcome =>
      rw [stateOrNew_of_some hstate]
      exact concluded_progress_iff.mpr (.inl hconcluded)
    | forgotten old => exact absurd rfl hreset

theorem hasConcluded_after {before between : List Request} {r : ProgressReport} {now : Moment}
    (hputs : ∀ r ∈ between, r.PutsNone) (hreset : .enrollment workspace (.reset user) ∉ between)
    (h : outcome? r = .ok (some id)) :
    HasConcluded workspace user id
      (Session.after s (before ++ .enrollment workspace (.report user r now) :: between)) := by
  have hstep : ∀ (s : σ) (r : Request), HasConcluded workspace user id s →
      r.PutsNone ∧ r ≠ .enrollment workspace (.reset user) →
      HasConcluded workspace user id (r.perform s).2 := fun _ _ hs hr ↦ hs.perform hr.1 hr.2
  rw [Session.after_append]
  exact Session.after_of_forall hstep (hasConcluded_report h)
    fun r hr ↦ ⟨hputs r hr, fun heq ↦ hreset (heq ▸ hr)⟩

end GuidedTours
