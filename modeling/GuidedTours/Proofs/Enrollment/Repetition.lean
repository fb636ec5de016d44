import GuidedTours.Proofs.Bystanders
import GuidedTours.Proofs.Enrollment.Resolution
import GuidedTours.Proofs.FlowIds
import GuidedTours.Proofs.Store.Writes

/-!
Enrolling once more. A flow that has been chosen from the listing of live flows is found again under
its id, as long as no two active flows have one id, and then a user who has got it gets it back
whatever the time and the rest of the profile. An enrollment that chooses nothing or fails leaves
everything that it has looked at as it was.
-/

set_option autoImplicit false

namespace GuidedTours

variable {σ : Type} [Store σ] {s : σ} {workspace : String} {profile : UserProfile}
  {opts : EnrollmentOpts} {now : Moment} {f : Flow}

namespace Enrollment

theorem liveFlow_text_iff {id : FlowId} :
    liveFlow workspace id.text s = .ok (some f) ↔
      Store.getFlow workspace id s = .ok f ∧ f.live := by
  rw [liveFlow, parseFlowId_of_some (FlowId.parseEntered?_text id)]
  simp only [ok_bind]
  cases Store.getFlow workspace id s with
  | error e => cases hfound : e.isNotFound <;> simp [hfound]
  | ok g =>
    by_cases hlive : g.live
    · simp only [if_pos hlive, Except.ok.injEq, Option.some.injEq]
      exact ⟨fun h ↦ ⟨h, h ▸ hlive⟩, And.left⟩
    · simp only [if_neg hlive, Except.ok.injEq, reduceCtorEq, false_iff, not_and]
      exact fun h ↦ h ▸ hlive

theorem resolve_of_current {state : UserState} {id : FlowId} (h : state.currentFlow = some id) :
    resolve workspace (.ofState state profile) now s = liveFlow workspace id.text s := by
  have hcurrent : named? (EnrollmentOpts.ofState state profile).currentEnrollmentId =
      some id.text :=
    named?_eq_some_iff.mpr ⟨congrArg (Option.map FlowId.text) h, id.text_ne_empty⟩
  rw [resolve, hcurrent]

theorem resolve_of_none {state : UserState} (h : state.currentFlow = none) :
    resolve workspace (.ofState state profile) now s =
      ((Store.listLiveFlows workspace s).mapError .store).map
        (List.find? (Eligibility.of (.ofState state profile) now).accepts) := by
  have hcurrent : named? (EnrollmentOpts.ofState state profile).currentEnrollmentId = none :=
    congrArg (fun id ↦ named? (id.map FlowId.text)) h
  rw [resolve, hcurrent]

section Choices

variable [Shelves σ]

theorem live_of_listed (hs : Shelves.Sound s) {fs : List Flow}
    (hlist : Store.listLiveFlows workspace s = .ok fs) (hf : f ∈ fs) : f.live := by
  rcases Shelves.listLiveFlows_cases hs workspace with hok | ⟨-, herror⟩
  · rw [Except.ok.inj (hlist.symm.trans hok)] at hf
    exact (List.mem_filter.mp hf).2
  · nomatch hlist.symm.trans herror

variable [Copying σ] [Rows σ] [LawfulRows σ]

/-- With distinct ids, a flow that is listed is found under its id. -/
theorem getFlow_of_listed (hs : Shelves.Sound s)
    (hids : ((Rows.active s).map Rows.id).Nodup) {fs : List Flow}
    (hlist : Store.listLiveFlows workspace s = .ok fs) (hf : f ∈ fs) :
    Store.getFlow workspace f.id s = .ok f := by
  rw [LawfulRows.listLiveFlows_eq] at hlist
  obtain ⟨r, hr, hread⟩ := mem_of_mapM_eq_ok hlist hf
  obtain ⟨hactive, hr⟩ := List.mem_filter.mp hr
  rw [Bool.and_eq_true, decide_eq_true_iff] at hr
  rw [← hr.1]
  exact LawfulRows.getFlow_of_read hs hids hactive hread

/-- Whichever way a flow has been chosen for a user, it is the live flow with its id. -/
theorem liveFlow_of_resolve (hs : Shelves.Sound s)
    (hids : ((Rows.active s).map Rows.id).Nodup) {state : UserState}
    (h : resolve workspace (.ofState state profile) now s = .ok (some f)) :
    liveFlow workspace f.id.text s = .ok (some f) := by
  cases hcurrent : state.currentFlow with
  | some id =>
    rw [resolve_of_current hcurrent] at h
    have hid : f.id = id := (LawfulRows.keys_of_getFlow hs (liveFlow_text_iff.mp h).1).1
    rw [hid]
    exact h
  | none =>
    rw [resolve_of_none hcurrent] at h
    cases hlist : Store.listLiveFlows workspace s with
    | error e =>
      rw [hlist] at h
      nomatch h
    | ok fs =>
      rw [hlist] at h
      have hf : f ∈ fs := List.mem_of_find?_eq_some (Except.ok.inj h)
      exact liveFlow_text_iff.mpr
        ⟨getFlow_of_listed hs hids hlist hf, live_of_listed hs hlist hf⟩

end Choices

/-- An enrollment that leaves the stored state as it is leaves the store as it is. -/
theorem enroll_eq_self [UserRecords σ] {state : UserState} {selected : Option Flow}
    (hstored : Store.getUserState workspace profile.externalId s = some state)
    (hanswer : (enroll workspace profile now s).1 = .ok selected)
    (hstate : enrolled selected state = state) :
    enroll workspace profile now s = (.ok selected, s) := by
  refine Prod.ext hanswer ?_
  rw [enroll_eq_put hanswer, stateOrNew_of_some hstored, hstate, putUserState_of_stored hstored]

end Enrollment

open Enrollment

/-- Enrolling a second time makes no difference. -/
structure EnrollsOnce (s : σ) : Prop where
  again (workspace : String) (profile : UserProfile) (now : Moment) :
    enroll workspace profile now (enroll workspace profile now s).2 = enroll workspace profile now s
  /-- Who has got a flow gets it at any other time too, whatever else the profile says. -/
  later (workspace : String) (profile : UserProfile) (now : Moment) (f : Flow)
    (h : (enroll workspace profile now s).1 = .ok (some f)) (other : UserProfile)
    (later : Moment) (huser : other.externalId = profile.externalId) :
    enroll workspace other later (enroll workspace profile now s).2 =
      (.ok (some f), (enroll workspace profile now s).2)

section Generic

variable [UserRecords σ] [UserList σ] [DetachedUsers σ] [Shelves σ] [Copying σ] [Rows σ]
  [LawfulRows σ]

theorem enroll_later (hs : Shelves.Sound s) (hids : ((Rows.active s).map Rows.id).Nodup)
    (h : (enroll workspace profile now s).1 = .ok (some f)) {other : UserProfile}
    (later : Moment) (huser : other.externalId = profile.externalId) :
    enroll workspace other later (enroll workspace profile now s).2 =
      (.ok (some f), (enroll workspace profile now s).2) := by
  have hstored := getUserState_enroll h
  rw [← huser] at hstored
  refine enroll_eq_self hstored ?_ rfl
  rw [enroll_answer, stateOrNew_of_some hstored, resolve_of_current rfl, enroll_eq_put h,
    DetachedUsers.putUserState_eq, liveFlow_withUsers]
  rw [enroll_answer] at h
  exact liveFlow_of_resolve hs hids h

theorem enrollsOnce (hs : Shelves.Sound s) (hids : ((Rows.active s).map Rows.id).Nodup) :
    EnrollsOnce s where
  later workspace profile now f h other later huser := enroll_later hs hids h later huser
  again workspace profile now := by
    cases h : (enroll workspace profile now s).1 with
    | error e => rw [enroll_of_error h]
    | ok selected =>
      cases selected with
      | some f => exact (enroll_later hs hids h now rfl).trans (Prod.ext h.symm rfl)
      | none =>
        -- Nothing has been chosen, so the same state leads to the same search.
        have hstored : Store.getUserState workspace profile.externalId
            (enroll workspace profile now s).2 =
              some (stateOrNew workspace profile.externalId s) := getUserState_enroll h
        refine (enroll_eq_self hstored ?_ rfl).trans (Prod.ext h.symm rfl)
        rw [enroll_answer, stateOrNew_of_some hstored, enroll_eq_put h,
          DetachedUsers.putUserState_eq, resolve_withUsers, ← enroll_answer, h]

end Generic

/-- Enrolling twice is enrolling once wherever no two active flows have one id, as it is in a store
of tables after every session. -/
theorem enrolls_once :
    (∀ s : ListStore, (s.active.map Flow.id).Nodup → EnrollsOnce s) ∧
    (∀ t : TableStore, t.Sound → EnrollsOnce t) ∧
    ∀ requests, (Session.after Store.empty requests : TableStore).Sound :=
  ⟨fun _ hids ↦ enrollsOnce trivial hids, fun _ ht ↦ enrollsOnce ht ht.activeKeys,
    fun requests ↦ Session.after_keeps TableStore.Sound.kept .empty requests⟩

/-- The user passes the flow for veterans over and gets the other one, also as a veteran later. -/
theorem enrolls_once_named :
    let newcomer : UserProfile := { externalId := "u" }
    let veteran : UserProfile :=
      { externalId := "u", signUpTimestamp := some 1700000000, segment := some "pro" }
    let now := Desk.draft.createdAt
    let s : ListStore := { active := [forVeterans, forNamed] }
    let t : TableStore := Session.after Store.empty
      [.store (.insertFlow forVeterans), .store (.insertFlow forNamed)]
    (s.active.map Flow.id).Nodup ∧
    (enroll "w" newcomer now s).1 = .ok (some forNamed) ∧
    (enroll "w" veteran now s).1 = .ok (some forVeterans) ∧
    enroll "w" newcomer now (enroll "w" newcomer now s).2 = enroll "w" newcomer now s ∧
    enroll "w" veteran now (enroll "w" newcomer now s).2 =
      (.ok (some forNamed), (enroll "w" newcomer now s).2) ∧
    enroll "w" veteran now (enroll "w" newcomer now t).2 =
      (.ok (some forNamed), (enroll "w" newcomer now t).2) := by
  intro newcomer veteran now s t
  have hids : (s.active.map Flow.id).Nodup := by decide
  have hlists : (enroll "w" newcomer now s).1 = .ok (some forNamed) := rfl
  have htables : (enroll "w" newcomer now t).1 = .ok (some forNamed) := rfl
  have haccepts : (Eligibility.of (.ofState (stateOrNew "w" "u" s) veteran) now).accepts
      forVeterans := by decide
  have hveteran : (enroll "w" veteran now s).1 = .ok (some forVeterans) := by
    rw [enroll_answer, resolve_of_none rfl]
    exact congrArg Except.ok (List.find?_cons_of_pos haccepts)
  have hs := enrolls_once.1 s hids
  have ht := enrolls_once.2.1 t (enrolls_once.2.2 _)
  exact ⟨hids, hlists, hveteran, hs.again "w" newcomer now,
    hs.later "w" newcomer now forNamed hlists veteran now rfl,
    ht.later "w" newcomer now forNamed htables veteran now rfl⟩

end GuidedTours
