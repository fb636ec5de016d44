import GuidedTours.Enrollment.Request
import GuidedTours.Proofs.Attempts

/-!
What the operations of enrollment do. An operation gives the store at most one user state, that of
the user it is about, and tracking gives it events.
-/

set_option autoImplicit false

namespace GuidedTours.Enrollment

variable {σ : Type} [Store σ] {s : σ} {workspace user : String} {profile : UserProfile}
  {now : Moment}

theorem parseFlowId_cases (raw : String) :
    FlowId.parseEntered? raw = none ∧ parseFlowId raw = .error (.malformedFlowId raw) ∨
      ∃ id, FlowId.parseEntered? raw = some id ∧ parseFlowId raw = .ok id := by
  unfold parseFlowId
  cases FlowId.parseEntered? raw with
  | none => exact .inl ⟨rfl, rfl⟩
  | some id => exact .inr ⟨id, rfl, rfl⟩

theorem parseFlowId_of_some {raw : String} {id : FlowId}
    (h : FlowId.parseEntered? raw = some id) : parseFlowId raw = .ok id := by
  rw [parseFlowId, h]

theorem outcome?_eq_some_iff {r : ProgressReport} {id : FlowId} :
    outcome? r = .ok (some id) ↔
      (r.finished ∨ r.skipped) ∧ FlowId.parseEntered? r.flowId = some id := by
  unfold outcome?
  split
  next h =>
    rcases parseFlowId_cases r.flowId with ⟨hnone, hparse⟩ | ⟨other, hsome, hparse⟩
    · simp [hparse, hnone, Except.map]
    · simp [hparse, hsome, h, Except.map]
  next h => simp [h]

theorem stateOrNew_of_some {state : UserState}
    (h : Store.getUserState workspace user s = some state) :
    stateOrNew workspace user s = state := by
  rw [stateOrNew, h, Option.getD_some]

/-- The state of a user after a flow has been chosen, or none. -/
def enrolled (selected : Option Flow) (state : UserState) : UserState :=
  match selected with
  | some flow => { state with currentFlow := some flow.id }
  | none => state

theorem enroll_answer (workspace : String) (profile : UserProfile) (now : Moment) (s : σ) :
    (enroll workspace profile now s).1 =
      resolve workspace (.ofState (stateOrNew workspace profile.externalId s) profile) now s := by
  simp only [enroll]
  cases resolve workspace (.ofState (stateOrNew workspace profile.externalId s) profile) now s with
  | error e => rfl
  | ok selected => rfl

theorem enroll_of_error {e : EnrollError}
    (h : (enroll workspace profile now s).1 = .error e) :
    (enroll workspace profile now s).2 = s := by
  rw [enroll_answer] at h
  simp only [enroll, h]

/-- Afterwards the state is the stored one, be it that it is put or that it has been before. -/
theorem enroll_of_ok {selected : Option Flow}
    (h : (enroll workspace profile now s).1 = .ok selected) :
    (enroll workspace profile now s).2 =
        Store.putUserState (enrolled selected (stateOrNew workspace profile.externalId s)) s ∨
      (enroll workspace profile now s).2 = s ∧
        Store.getUserState workspace profile.externalId s =
          some (enrolled selected (stateOrNew workspace profile.externalId s)) := by
  rw [enroll_answer] at h
  have heq : (enroll workspace profile now s).2 =
      if (enrolled selected (stateOrNew workspace profile.externalId s)).currentFlow ≠
          (stateOrNew workspace profile.externalId s).currentFlow ∨
        (Store.getUserState workspace profile.externalId s).isNone then
      Store.putUserState (enrolled selected (stateOrNew workspace profile.externalId s)) s
      else s := by
    simp only [enroll, h]
    rfl
  rw [heq]
  split
  next => exact .inl rfl
  next hsame =>
    refine .inr ⟨rfl, ?_⟩
    obtain ⟨hcurrent, hstored⟩ := not_or.mp hsame
    obtain ⟨state, hstate⟩ :=
      Option.ne_none_iff_exists'.mp (mt Option.isNone_iff_eq_none.mpr hstored)
    rw [stateOrNew_of_some hstate] at hcurrent ⊢
    rw [hstate]
    cases selected with
    | none => rfl
    | some flow =>
      have hflow : some flow.id = state.currentFlow := Classical.not_not.mp hcurrent
      rw [enrolled, hflow]

theorem report_cases (workspace user : String) (r : ProgressReport) (now : Moment) (s : σ) :
    (report workspace user r now s).2 = s ∨
      ∃ outcome, outcome? r = .ok outcome ∧ report workspace user r now s =
        (.ok (some (progress r outcome now (stateOrNew workspace user s))),
          Store.putUserState (progress r outcome now (stateOrNew workspace user s)) s) := by
  unfold report
  split
  next => exact .inl rfl
  next =>
    cases outcome? r with
    | error e => exact .inl rfl
    | ok outcome => exact .inr ⟨outcome, rfl, rfl⟩

/-- A report with an outcome is always recorded. -/
theorem report_of_outcome {r : ProgressReport} {id : FlowId} (h : outcome? r = .ok (some id)) :
    report workspace user r now s =
      (.ok (some (progress r (some id) now (stateOrNew workspace user s))),
        Store.putUserState (progress r (some id) now (stateOrNew workspace user s)) s) := by
  have hsilent : ¬ (!r.finished ∧ !r.skipped ∧ named? r.currentStepId = none) := by
    rintro ⟨hfinished, hskipped, -⟩
    rcases (outcome?_eq_some_iff.mp h).1 with hr | hr
    · simp [hr] at hfinished
    · simp [hr] at hskipped
  rw [report, if_neg hsilent]
  simp only [h]

theorem reset_cases (workspace user : String) (s : σ) :
    Store.getUserState workspace user s = none ∧ reset workspace user s = s ∨
      ∃ state, Store.getUserState workspace user s = some state ∧
        reset workspace user s = Store.putUserState state.reset s := by
  unfold reset
  cases Store.getUserState workspace user s with
  | none => exact .inl ⟨rfl, rfl⟩
  | some state => exact .inr ⟨state, rfl, rfl⟩

theorem trackEvents_cases (workspace user : String) (events : List TrackedEvent) (s : σ) :
    trackEvents workspace user events s = s ∨
      ∃ tracked, trackEvents workspace user events s = Store.recordEvents tracked s := by
  unfold trackEvents
  split
  next => exact .inl rfl
  next => exact .inr ⟨_, rfl⟩

end GuidedTours.Enrollment
