import GuidedTours.Proofs.Enrollment.Users

/-!
What users are offered in the course of a session. As long as nobody but the enrollment writes user
states, every stored state is consistent, and an offered flow is one that the user has not
concluded, though a user who is in the middle of a flow gets it back without any look at the rule.
A flow that has been reported finished or skipped is therefore not offered again before a reset.
-/

set_option autoImplicit false

namespace GuidedTours

open Enrollment

variable {σ : Type} [Store σ] [Shelves σ] {s : σ} {workspace user : String}

/-- An enrollment fails only at a flow that cannot be read, and chooses no flow but one that the
user may get. -/
theorem enroll_answer_cases (hs : Shelves.Sound s) (workspace : String) (profile : UserProfile)
    (now : Moment) :
    (enroll workspace profile now s).1 = .error (.store .unreadableRow) ∨
      ∃ selected, (enroll workspace profile now s).1 = .ok selected ∧ ∀ f, selected = some f →
        (stateOrNew workspace profile.externalId s).MayGet (Shelves.shelf workspace s) f := by
  rw [enroll_answer]
  rcases resolve_cases hs workspace
    (.ofState (stateOrNew workspace profile.externalId s) profile) now with hanswer | ⟨-, herror⟩
  · rw [hanswer]
    exact .inr (resolveOn_ofState _ profile now _)
  · exact .inl herror

theorem ConsistentStates.advance (h : ConsistentStates s) (hs : Shelves.Sound s)
    {r : EnrollmentRequest} {state : UserState} (hadvance : Advance workspace user s r state) :
    state.Consistent := by
  cases hadvance with
  | @chosen profile now selected huser henroll =>
    obtain rfl := huser
    have hold := h.stateOrNew workspace profile.externalId
    rcases enroll_answer_cases hs workspace profile now with herror | ⟨chosen, hok, hmay⟩
    · rw [henroll] at herror
      nomatch herror
    · obtain rfl : selected = chosen := Except.ok.inj (henroll.symm.trans hok)
      cases selected with
      | none => exact hold
      | some f => exact (hmay f rfl).consistent hold
  | reported houtcome => exact consistent_progress (h.stateOrNew workspace user) _ _ _
  | forgotten old => exact old.consistent_reset

/-- What holds of a flow that a user is offered, by the stores before and after. -/
structure Offered (workspace user : String) (f : Flow) (before later : σ) : Prop where
  live : f.live
  active : f ∈ Shelves.shelf workspace later
  notCompleted : f.id ∉ (stateOrNew workspace user before).completed.ids
  notSkipped : f.id ∉ (stateOrNew workspace user before).skipped.ids
  current : ∃ state, Store.getUserState workspace user later = some state ∧
    state.currentFlow = some f.id
  dependencies : (stateOrNew workspace user before).currentFlow ≠ some f.id →
    ∀ id ∈ f.opts.dependsOn, id ∈ (stateOrNew workspace user before).completed.ids

theorem shelf_enroll (workspace asked : String) (profile : UserProfile) (now : Moment) (s : σ) :
    Shelves.shelf workspace (enroll asked profile now s).2 = Shelves.shelf workspace s := by
  cases h : (enroll asked profile now s).1 with
  | error e => rw [enroll_of_error h]
  | ok selected =>
    rcases enroll_of_ok h with heq | ⟨heq, -⟩
    · rw [heq, Shelves.shelf_putUserState]
    · rw [heq]

variable [UserRecords σ]

theorem ConsistentStates.perform {r : Request} (hr : r.PutsNone)
    (h : Shelves.Sound s ∧ ConsistentStates s) :
    Shelves.Sound (r.perform s).2 ∧ ConsistentStates (r.perform s).2 := by
  refine ⟨r.perform_keeps Shelves.sound_kept h.1, fun workspace user state hfound ↦ ?_⟩
  rcases r.getUserState_perform hr workspace user s with hsame | ⟨request, new, -, hadvance, hnew⟩
  · exact h.2 workspace user state (hsame.symm.trans hfound)
  · obtain rfl : new = state := Option.some.inj (hnew.symm.trans hfound)
    exact h.2.advance h.1 hadvance

theorem offered_of_enroll (hs : Shelves.Sound s ∧ ConsistentStates s) {profile : UserProfile}
    {now : Moment} {f : Flow} (h : (enroll workspace profile now s).1 = .ok (some f)) :
    Offered workspace profile.externalId f s (enroll workspace profile now s).2 := by
  rcases enroll_answer_cases hs.1 workspace profile now with herror | ⟨selected, hok, hmay⟩
  · rw [h] at herror
    nomatch herror
  · obtain ⟨hmem, hlive, hchoice⟩ := hmay f (Except.ok.inj (hok.symm.trans h))
    have hnew : ¬ (stateOrNew workspace profile.externalId s).Concluded f.id :=
      UserState.MayGet.not_concluded ⟨hmem, hlive, hchoice⟩ (hs.2.stateOrNew _ _)
    refine ⟨hlive, ?_, fun hid ↦ hnew (.inl hid), fun hid ↦ hnew (.inr hid),
      ⟨_, getUserState_enroll h, rfl⟩, fun hother ↦ ?_⟩
    · rw [shelf_enroll]
      exact hmem
    · rcases hchoice with hcurrent | ⟨-, -, hdependencies⟩
      · exact absurd hcurrent hother
      · exact hdependencies

/-- What users can rely on after a session that begins with an empty store. -/
structure Reliable (σ : Type) [Store σ] [Shelves σ] (requests : List Request) : Prop where
  consistent : ConsistentStates (Session.after (Store.empty : σ) requests)
  neverMalformed : ∀ workspace profile now raw,
    (enroll workspace profile now (Session.after (Store.empty : σ) requests)).1 ≠
      .error (.malformedFlowId raw)
  offered : ∀ workspace profile now f,
    (enroll workspace profile now (Session.after (Store.empty : σ) requests)).1 = .ok (some f) →
    Offered workspace profile.externalId f (Session.after (Store.empty : σ) requests)
      (enroll workspace profile now (Session.after (Store.empty : σ) requests)).2
  /-- A flow that has been reported finished or skipped is not offered before a reset. -/
  neverAgain : ∀ before between workspace user (r : ProgressReport) now id,
    requests = before ++ .enrollment workspace (.report user r now) :: between →
    r.finished ∨ r.skipped → FlowId.parseEntered? r.flowId = some id →
    .enrollment workspace (.reset user) ∉ between →
    ∀ profile later f, profile.externalId = user →
      (enroll workspace profile later (Session.after (Store.empty : σ) requests)).1 =
        .ok (some f) → f.id ≠ id

theorem reliable_session {requests : List Request} (h : ∀ r ∈ requests, r.PutsNone) :
    Reliable σ requests := by
  have hempty : Shelves.Sound (Store.empty : σ) ∧ ConsistentStates (Store.empty : σ) := by
    refine ⟨Shelves.sound_empty, fun workspace user state hstored ↦ ?_⟩
    rw [UserRecords.getUserState_empty] at hstored
    nomatch hstored
  have hstep : ∀ (s : σ) (r : Request), Shelves.Sound s ∧ ConsistentStates s → r.PutsNone →
      Shelves.Sound (r.perform s).2 ∧ ConsistentStates (r.perform s).2 :=
    fun _ _ hs hr ↦ ConsistentStates.perform hr hs
  have hafter := Session.after_of_forall hstep hempty h
  refine ⟨hafter.2, fun workspace profile now raw hmalformed ↦ ?_,
    fun workspace profile now f ↦ offered_of_enroll hafter, ?_⟩
  · rcases enroll_answer_cases hafter.1 workspace profile now with herror | ⟨selected, hok, -⟩
    · nomatch herror.symm.trans hmalformed
    · nomatch hok.symm.trans hmalformed
  · intro before between workspace user r now id hrequests hconcludes hid hreset profile later f
      huser hoffer heq
    have hbetween : ∀ r ∈ between, r.PutsNone := by
      intro r hr
      refine h r ?_
      rw [hrequests]
      exact List.mem_append_right before (List.mem_cons_of_mem _ hr)
    have houtcome := outcome?_eq_some_iff.mpr ⟨hconcludes, hid⟩
    obtain ⟨state, hstate, hconcluded⟩ : HasConcluded workspace user id
        (Session.after (Store.empty : σ) requests) := by
      rw [hrequests]
      exact hasConcluded_after hbetween hreset houtcome
    have hoffered := offered_of_enroll hafter hoffer
    have hold := stateOrNew_of_some hstate
    rw [← huser] at hold
    rcases hconcluded with hcompleted | hskipped
    · exact hoffered.notCompleted (by rw [hold, heq]; exact hcompleted)
    · exact hoffered.notSkipped (by rw [hold, heq]; exact hskipped)

/-- Whatever editors do meanwhile, enrollment is reliable if it alone writes user states. -/
theorem sessions_are_reliable {requests : List Request} (h : ∀ r ∈ requests, r.PutsNone) :
    Reliable ListStore requests ∧ Reliable TableStore requests :=
  ⟨reliable_session h, reliable_session h⟩

/-- A flow is created and published, and a user finishes it. -/
def firstTour : List Request := [
  .editor {} "w" (.create { name := some "Draft", baseUrl := some "/" } Desk.draft.id
    Desk.draft.createdAt),
  .editor {} "w" (.edit Desk.draft.id.text (.setLive true)),
  .enrollment "w" (.enroll { externalId := "u" } Desk.draft.createdAt),
  .enrollment "w" (.report "u" { flowId := Desk.draft.id.text, finished := true }
    Desk.draft.createdAt)]

theorem sessions_are_reliable_first_tour :
    (∀ r ∈ firstTour, r.PutsNone) ∧ Reliable ListStore firstTour ∧ Reliable TableStore firstTour ∧
    (enroll "w" { externalId := "u" } Desk.draft.createdAt
      (Session.after (Store.empty : ListStore) (firstTour.take 2))).1 =
        .ok (some { Desk.draft with live := true, revision := 1 }) ∧
    (enroll "w" { externalId := "u" } Desk.draft.createdAt
      (Session.after (Store.empty : ListStore) firstTour)).1 = .ok none := by
  have hputs : ∀ r ∈ firstTour, r.PutsNone := by
    intro r hr state heq
    subst heq
    simp [firstTour] at hr
  exact ⟨hputs, (sessions_are_reliable hputs).1, (sessions_are_reliable hputs).2, rfl, rfl⟩

end GuidedTours
