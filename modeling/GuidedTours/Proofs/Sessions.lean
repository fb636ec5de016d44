import GuidedTours.Proofs.Editor.Schedule
import GuidedTours.Proofs.Enrollment.Operations
import GuidedTours.Proofs.Store.Runs
import GuidedTours.Session

/-!
What sessions keep. Editors change a store only through the operations on flows, and enrollment
only through user states and events, so a property that all operations of a store keep holds after
every session that begins with it.
-/

set_option autoImplicit false

namespace GuidedTours

variable {σ : Type} [Store σ] {s : σ} {workspace : String}

namespace Editor

variable {P : σ → Prop}

theorem save_keeps (hP : KeptByFlows P) (hs : P s) (config : EditorConfig) (edit : Edit)
    (loaded : Flow) : P (save config edit loaded s).2 := by
  rcases save_cases config edit loaded s with ⟨e, -, heq⟩ | ⟨revised, -, heq⟩
  · rw [heq]
    exact hs
  · rw [heq]
    exact hP.saveFlow _ _ _ hs

end Editor

theorem EditorRequest.perform_keeps {P : σ → Prop} (hP : KeptByFlows P) (hs : P s)
    (config : EditorConfig) (workspace : String) (r : EditorRequest) :
    P (r.perform config workspace s).2 := by
  cases r with
  | create input id now =>
    simp only [perform]
    rcases Editor.create_cases workspace input id now s with ⟨e, heq⟩ | ⟨f, -, heq⟩
    · rw [heq]
      exact hs
    · rw [heq]
      exact hP.insertFlow _ _ hs
  | edit flowId change =>
    simp only [perform, Editor.edit]
    cases Editor.get workspace flowId s with
    | error e => exact hs
    | ok loaded => exact Editor.save_keeps hP hs config change loaded
  | archive flowId =>
    simp only [perform]
    rcases Editor.archive_cases workspace flowId s with ⟨e, heq⟩ | ⟨id, -, heq⟩
    · rw [heq]
      exact hs
    · rw [heq]
      exact hP.archiveFlow _ _ _ hs
  | restore flowId =>
    simp only [perform]
    rcases Editor.restore_cases workspace flowId s with ⟨e, heq⟩ | ⟨id, -, heq⟩
    · rw [heq]
      exact hs
    · rw [heq]
      exact hP.restoreFlow _ _ _ hs
  | get _ | list | listArchived | dependencyCandidates _ | rootStep _ | childStep _ _ _ => exact hs

/-- Enrollment puts at most one user state, and only tracking records events. -/
theorem EnrollmentRequest.perform_cases (workspace : String) (s : σ) (r : EnrollmentRequest) :
    (r.perform workspace s).2 = s ∨
      (∃ state, (r.perform workspace s).2 = Store.putUserState state s) ∨
      ∃ user events, r = .trackEvents user events := by
  cases r with
  | enroll profile now =>
    simp only [perform]
    cases h : (Enrollment.enroll workspace profile now s).1 with
    | error e => exact .inl (Enrollment.enroll_of_error h)
    | ok selected =>
      rcases Enrollment.enroll_of_ok h with heq | ⟨heq, -⟩
      · exact .inr (.inl ⟨_, heq⟩)
      · exact .inl heq
  | report user progress now =>
    simp only [perform]
    rcases Enrollment.report_cases workspace user progress now s with heq | ⟨outcome, -, heq⟩
    · exact .inl heq
    · exact .inr (.inl ⟨_, congrArg Prod.snd heq⟩)
  | reset user =>
    simp only [perform]
    rcases Enrollment.reset_cases workspace user s with ⟨-, heq⟩ | ⟨state, -, heq⟩
    · exact .inl heq
    · exact .inr (.inl ⟨_, heq⟩)
  | trackEvents user events => exact .inr (.inr ⟨user, events, rfl⟩)
  | resolve _ _ | liveFlow _ | state _ | analytics _ => exact .inl rfl

theorem EnrollmentRequest.perform_keeps {P : σ → Prop} (hP : Kept P) (hs : P s)
    (workspace : String) (r : EnrollmentRequest) : P (r.perform workspace s).2 := by
  rcases r.perform_cases workspace s with heq | ⟨state, heq⟩ | ⟨user, events, rfl⟩
  · rw [heq]
    exact hs
  · rw [heq]
    exact hP.putUserState state s hs
  · simp only [perform]
    rcases Enrollment.trackEvents_cases workspace user events s with heq | ⟨tracked, heq⟩
    · rw [heq]
      exact hs
    · rw [heq]
      exact hP.recordEvents tracked s hs

theorem Request.perform_keeps {P : σ → Prop} (hP : Kept P) (hs : P s) (r : Request) :
    P (r.perform s).2 := by
  cases r with
  | store request => exact StoreRequest.perform_keeps hP hs request
  | editor config workspace request =>
    exact EditorRequest.perform_keeps hP.toKeptByFlows hs config workspace request
  | enrollment workspace request => exact EnrollmentRequest.perform_keeps hP hs workspace request

namespace Session

theorem after_append (s : σ) (before later : List Request) :
    after s (before ++ later) = after (after s before) later := by
  rw [after, run_append]

/-- What every allowed request keeps holds after a session of them. -/
theorem after_of_forall {P : σ → Prop} {allowed : Request → Prop}
    (hstep : ∀ s r, P s → allowed r → P (r.perform s).2) (hs : P s) {requests : List Request}
    (h : ∀ r ∈ requests, allowed r) : P (after s requests) := by
  induction requests generalizing s with
  | nil => exact hs
  | cons r rest ih =>
    exact ih (hstep s r hs (h r List.mem_cons_self)) fun r' hr' ↦ h r' (List.mem_cons_of_mem r hr')

/-- Every request is one that is allowed where it is made. -/
def Along (allowed : σ → Request → Prop) : σ → List Request → Prop
  | _, [] => True
  | s, r :: rest => allowed s r ∧ Along allowed (r.perform s).2 rest

theorem after_of_along {P : σ → Prop} {allowed : σ → Request → Prop}
    (hstep : ∀ s r, P s → allowed s r → P (r.perform s).2) (hs : P s) {requests : List Request}
    (h : Along allowed s requests) : P (after s requests) := by
  induction requests generalizing s with
  | nil => exact hs
  | cons r rest ih => exact ih (hstep s r hs h.1) h.2

theorem after_keeps {P : σ → Prop} (hP : Kept P) (hs : P s) (requests : List Request) :
    P (after s requests) :=
  have hstep : ∀ s r, P s → True → P (Request.perform s r).2 :=
    fun _ r hs _ ↦ r.perform_keeps hP hs
  after_of_forall hstep hs fun _ _ ↦ trivial

end Session

end GuidedTours
