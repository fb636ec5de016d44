import GuidedTours.Proofs.Bystanders
import GuidedTours.Proofs.Sessions

/-!
After a reset a user is a new one. Two sessions are compared, one that begins after the reset and
one that begins without the user's record. They differ in nothing but the record, which in the one
has been emptied and in the other is missing; all that the enrollment makes of a record it makes of
an empty one in place of a missing one. So the answers are the same at all times, and as soon as the
record is written in one session it is the same in both.
-/

set_option autoImplicit false

namespace GuidedTours

open Enrollment

variable {σ : Type} [Store σ] [UserList σ] {s t : σ} {workspace user : String}

/-- The store without the record of a user. -/
def forget (workspace user : String) (s : σ) : σ :=
  withUsers ((users s).filter fun state ↦ !state.isOf workspace user) s

/-- Two stores differ at most in the record of a user, which the one has emptied and the other does
not have. -/
structure Merging (workspace user : String) (s t : σ) : Prop where
  rest : s = withUsers (users s) t
  others (asked who : String) (h : asked ≠ workspace ∨ who ≠ user) :
    Store.getUserState asked who s = Store.getUserState asked who t
  own : Store.getUserState workspace user s = Store.getUserState workspace user t ∨
    Store.getUserState workspace user s = some { workspace, user } ∧
      Store.getUserState workspace user t = none

/-- The request is a look at the record of the user. -/
def Request.LooksAt (workspace user : String) (r : Request) : Prop :=
  r = .store (.getUserState workspace user) ∨ r = .enrollment workspace (.state user)

/-- The request puts a state of the user into the store. -/
inductive Request.Puts (workspace user : String) (s : σ) : Request → Prop
  | enrolled {profile : UserProfile} {now : Moment} {selected : Option Flow}
    (huser : profile.externalId = user) (h : (enroll workspace profile now s).1 = .ok selected) :
    Puts workspace user s (.enrollment workspace (.enroll profile now))
  | reported {r : ProgressReport} {now : Moment} {state : UserState}
    (h : (report workspace user r now s).1 = .ok (some state)) :
    Puts workspace user s (.enrollment workspace (.report user r now))
  | put {state : UserState} (h : state.isOf workspace user) :
    Puts workspace user s (.store (.putUserState state))

/-- The same answer is given, and the stores afterwards differ at most in the record. -/
structure Alike {α : Type} (workspace user : String) (x y : α × σ) : Prop where
  answer : x.1 = y.1
  merging : Merging workspace user x.2 y.2

theorem Alike.map {α β : Type} {x y : α × σ} (h : Alike workspace user x y) (f : α → β) :
    Alike workspace user (f x.1, x.2) (f y.1, y.2) :=
  ⟨congrArg f h.answer, h.merging⟩

namespace Merging

theorem get_eq {α : Type} {get : σ → α} (h : Merging workspace user s t)
    (hget : ∀ others s, get (withUsers others s) = get s) : get s = get t := by
  rw [h.rest, hget]

theorem getUserState_eq (h : Merging workspace user s t) {asked who : String}
    (hother : ¬ (asked = workspace ∧ who = user)) :
    Store.getUserState asked who s = Store.getUserState asked who t :=
  h.others asked who (Decidable.not_and_iff_or_not.mp hother)

/-- The two stores lead to the same state, be it stored or new. -/
theorem stateOrNew_eq (h : Merging workspace user s t) (asked who : String) :
    stateOrNew asked who s = stateOrNew asked who t := by
  unfold stateOrNew
  by_cases hown : asked = workspace ∧ who = user
  · obtain ⟨rfl, rfl⟩ := hown
    rcases h.own with hsame | ⟨hempty, hnone⟩
    · rw [hsame]
    · rw [hempty, hnone]
      rfl
  · rw [h.getUserState_eq hown]

variable [DetachedUsers σ]

theorem ignoring {α : Type} {op : σ → α × σ} (h : Merging workspace user s t) (hop : Ignores op) :
    Alike workspace user (op s) (op t) := by
  have heq : op s = ((op t).1, withUsers (users s) (op t).2) := by
    conv_lhs => rw [h.rest]
    exact hop (users s) t
  have hstored (asked who : String) (x : σ) : Store.getUserState asked who (op x).2 =
      Store.getUserState asked who x := by
    rw [DetachedUsers.getUserState_eq, hop.users_eq, ← DetachedUsers.getUserState_eq]
  refine ⟨by rw [heq], ⟨?_, fun asked who hother ↦ ?_, ?_⟩⟩
  · rw [hop.users_eq, heq]
  · rw [hstored, hstored]
    exact h.others asked who hother
  · rw [hstored, hstored]
    exact h.own

variable [UserRecords σ]

theorem put (h : Merging workspace user s t) (state : UserState) :
    Merging workspace user (Store.putUserState state s) (Store.putUserState state t) where
  rest := by
    rw [DetachedUsers.putUserState_eq, DetachedUsers.putUserState_eq,
      DetachedUsers.users_withUsers, DetachedUsers.withUsers_withUsers]
    conv_lhs => rw [h.rest]
    rw [DetachedUsers.withUsers_withUsers, DetachedUsers.users_withUsers]
  others asked who hother := by
    rw [UserRecords.getUserState_putUserState, UserRecords.getUserState_putUserState,
      h.others asked who hother]
  own := by
    rw [UserRecords.getUserState_putUserState, UserRecords.getUserState_putUserState]
    split
    · exact .inl rfl
    · exact h.own

theorem enroll (h : Merging workspace user s t) (asked : String) (profile : UserProfile)
    (now : Moment) :
    Alike workspace user (enroll asked profile now s) (enroll asked profile now t) := by
  have hanswer : (Enrollment.enroll asked profile now s).1 =
      (Enrollment.enroll asked profile now t).1 := by
    rw [enroll_answer, enroll_answer, h.stateOrNew_eq]
    exact h.get_eq fun others s ↦ resolve_withUsers asked _ now others s
  refine ⟨hanswer, ?_⟩
  cases ht : (Enrollment.enroll asked profile now t).1 with
  | error e =>
    rw [enroll_of_error (hanswer.trans ht), enroll_of_error ht]
    exact h
  | ok selected =>
    rw [enroll_eq_put (hanswer.trans ht), enroll_eq_put ht, h.stateOrNew_eq]
    exact h.put _

theorem report (h : Merging workspace user s t) (asked who : String) (r : ProgressReport)
    (now : Moment) :
    Alike workspace user (report asked who r now s) (report asked who r now t) := by
  unfold Enrollment.report
  split
  next => exact ⟨rfl, h⟩
  next =>
    cases outcome? r with
    | error e => exact ⟨rfl, h⟩
    | ok outcome =>
      simp only [h.stateOrNew_eq]
      exact ⟨rfl, h.put _⟩

theorem reset (h : Merging workspace user s t) (asked who : String) :
    Merging workspace user (reset asked who s) (reset asked who t) := by
  by_cases hown : asked = workspace ∧ who = user
  · obtain ⟨rfl, rfl⟩ := hown
    rcases h.own with hsame | ⟨hempty, hnone⟩
    · unfold Enrollment.reset
      rw [hsame]
      cases Store.getUserState asked who t with
      | none => exact h
      | some state => exact h.put state.reset
    · -- What has been emptied is emptied once more, which makes no difference.
      have hs : Enrollment.reset asked who s = s := by
        rw [Enrollment.reset, hempty]
        exact putUserState_of_stored hempty
      have ht : Enrollment.reset asked who t = t := by rw [Enrollment.reset, hnone]
      rw [hs, ht]
      exact h
  · unfold Enrollment.reset
    rw [h.getUserState_eq hown]
    cases Store.getUserState asked who t with
    | none => exact h
    | some state => exact h.put state.reset

/-- Only a look at the record itself tells the two stores apart. -/
theorem enrollmentRequest (h : Merging workspace user s t) (asked : String)
    (r : EnrollmentRequest) :
    Merging workspace user (r.perform asked s).2 (r.perform asked t).2 ∧
      (¬ (asked = workspace ∧ r = .state user) →
        (r.perform asked s).1 = (r.perform asked t).1) := by
  have halike {x y : Except EnrollError EnrollmentAnswer × σ} (hxy : Alike workspace user x y) :
      Merging workspace user x.2 y.2 ∧
        (¬ (asked = workspace ∧ r = .state user) → x.1 = y.1) :=
    ⟨hxy.merging, fun _ ↦ hxy.answer⟩
  cases r with
  | enroll profile now =>
    simp only [EnrollmentRequest.perform]
    exact halike ((h.enroll asked profile now).map (Except.map EnrollmentAnswer.flow))
  | report who progress now =>
    simp only [EnrollmentRequest.perform]
    exact halike ((h.report asked who progress now).map (Except.map EnrollmentAnswer.userState))
  | reset who => exact ⟨h.reset asked who, fun _ ↦ rfl⟩
  | state who =>
    refine ⟨h, fun hother ↦ ?_⟩
    have hwho : ¬ (asked = workspace ∧ who = user) := by simpa using hother
    simp only [EnrollmentRequest.perform, h.getUserState_eq hwho]
  | trackEvents who events =>
    exact ⟨(h.ignoring (ignores_trackEvents asked who events)).merging, fun _ ↦ rfl⟩
  | resolve opts now =>
    have hsame := h.get_eq (resolve_withUsers asked opts now)
    exact ⟨h, fun _ ↦ by simp only [EnrollmentRequest.perform, hsame]⟩
  | liveFlow flowId =>
    have hsame := h.get_eq (liveFlow_withUsers asked flowId)
    exact ⟨h, fun _ ↦ by simp only [EnrollmentRequest.perform, hsame]⟩
  | analytics flowId =>
    have hsame := h.get_eq (analytics_withUsers asked flowId)
    exact ⟨h, fun _ ↦ by simp only [EnrollmentRequest.perform, hsame]⟩

theorem storeRequest (h : Merging workspace user s t) (r : StoreRequest) :
    Merging workspace user (r.perform s).2 (r.perform t).2 ∧
      (r ≠ .getUserState workspace user → (r.perform s).1 = (r.perform t).1) := by
  by_cases hget : ∃ asked who, r = .getUserState asked who
  · obtain ⟨asked, who, rfl⟩ := hget
    refine ⟨h, fun hother ↦ ?_⟩
    have hwho : ¬ (asked = workspace ∧ who = user) := by simpa using hother
    simp only [StoreRequest.perform, h.getUserState_eq hwho]
  · by_cases hput : ∃ state, r = .putUserState state
    · obtain ⟨state, rfl⟩ := hput
      exact ⟨h.put state, fun _ ↦ rfl⟩
    · have halike := h.ignoring (StoreRequest.ignores (fun asked who heq ↦ hget ⟨asked, who, heq⟩)
        fun state heq ↦ hput ⟨state, heq⟩)
      exact ⟨halike.merging, fun _ ↦ halike.answer⟩

theorem request (h : Merging workspace user s t) (r : Request) :
    Merging workspace user (r.perform s).2 (r.perform t).2 ∧
      (¬ r.LooksAt workspace user → (r.perform s).1 = (r.perform t).1) := by
  cases r with
  | store r =>
    refine ⟨(h.storeRequest r).1, fun hlooks ↦ congrArg Answer.store ((h.storeRequest r).2 ?_)⟩
    rintro rfl
    exact hlooks (.inl rfl)
  | editor config asked r =>
    have halike := (h.ignoring (r.ignores config asked)).map Answer.editor
    exact ⟨halike.merging, fun _ ↦ halike.answer⟩
  | enrollment asked r =>
    refine ⟨(h.enrollmentRequest asked r).1,
      fun hlooks ↦ congrArg Answer.enrollment ((h.enrollmentRequest asked r).2 ?_)⟩
    rintro ⟨rfl, rfl⟩
    exact hlooks (.inr rfl)

theorem after (h : Merging workspace user s t) (requests : List Request) :
    Merging workspace user (Session.after s requests) (Session.after t requests) := by
  induction requests generalizing s t with
  | nil => exact h
  | cons r rest ih => exact ih (h.request r).1

theorem run (h : Merging workspace user s t) {requests : List Request}
    (hlooks : ∀ r ∈ requests, ¬ r.LooksAt workspace user) :
    (Session.run s requests).1 = (Session.run t requests).1 := by
  induction requests generalizing s t with
  | nil => rfl
  | cons r rest ih =>
    have hfirst := (h.request r).2 (hlooks r List.mem_cons_self)
    have hrest := ih (h.request r).1 fun r' hr' ↦ hlooks r' (List.mem_cons_of_mem r hr')
    simp only [Session.run, hfirst, hrest]

end Merging

section Begin

variable [DetachedUsers σ]

theorem getUserState_forget_self (workspace user : String) (s : σ) :
    Store.getUserState workspace user (forget workspace user s) = none := by
  rw [forget, getUserState_withUsers, List.find?_eq_none]
  intro state hstate
  simpa using (List.mem_filter.mp hstate).2

theorem getUserState_forget {asked who : String} (h : asked ≠ workspace ∨ who ≠ user) (s : σ) :
    Store.getUserState asked who (forget workspace user s) = Store.getUserState asked who s := by
  rw [forget, getUserState_withUsers, DetachedUsers.getUserState_eq]
  refine find?_filter_of_forall fun state hstate ↦ ?_
  obtain ⟨rfl, rfl⟩ := UserState.isOf_iff.mp hstate
  simpa [UserState.isOf] using h

variable [UserRecords σ]

omit [UserList σ] [DetachedUsers σ] in
theorem getUserState_reset_self (workspace user : String) (s : σ) :
    Store.getUserState workspace user (reset workspace user s) =
      (Store.getUserState workspace user s).map UserState.reset := by
  rcases reset_cases workspace user s with ⟨hnone, heq⟩ | ⟨state, hstate, heq⟩
  · rw [heq, hnone]
    rfl
  · have hown : state.isOf workspace user := UserRecords.isOf_getUserState hstate
    have hreset : state.reset.isOf workspace user := hown
    rw [heq, getUserState_put_self hreset, hstate, Option.map_some]

/-- A reset changes the record of the user and nothing else. -/
theorem reset_eq_withUsers (workspace user : String) (s : σ) :
    reset workspace user s =
      withUsers (modifyFirst (UserState.isOf workspace user) UserState.reset (users s)) s := by
  rcases reset_cases workspace user s with ⟨hnone, heq⟩ | ⟨state, hstate, heq⟩
  · rw [DetachedUsers.getUserState_eq, List.find?_eq_none] at hnone
    rw [heq, modifyFirst_of_forall_not hnone, DetachedUsers.withUsers_users]
  · obtain ⟨rfl, rfl⟩ := UserState.isOf_iff.mp (UserRecords.isOf_getUserState hstate)
    rw [DetachedUsers.getUserState_eq] at hstate
    have hany : (users s).any (UserState.isOf state.workspace state.user) :=
      List.any_eq_true.mpr ⟨state, List.mem_of_find?_eq_some hstate, List.find?_some hstate⟩
    have hput : state.reset.put (users s) = modifyFirst
        (UserState.isOf state.workspace state.user) UserState.reset (users s) := by
      refine (if_pos hany).trans (modifyFirst_congr fun other _ hother ↦ ?_)
      obtain ⟨hworkspace, huser⟩ := UserState.isOf_iff.mp hother
      rw [UserState.reset.eq_def other, hworkspace, huser]
      rfl
    rw [heq, DetachedUsers.putUserState_eq, hput]

theorem merging_reset (workspace user : String) (s : σ) :
    Merging workspace user (reset workspace user s) (forget workspace user s) where
  rest := by
    rw [reset_eq_withUsers, DetachedUsers.users_withUsers, forget,
      DetachedUsers.withUsers_withUsers]
  others asked who hother := by
    rw [getUserState_forget hother]
    rcases reset_cases workspace user s with ⟨-, heq⟩ | ⟨state, hstate, heq⟩
    · rw [heq]
    · obtain ⟨rfl, rfl⟩ := UserState.isOf_iff.mp (UserRecords.isOf_getUserState hstate)
      rw [heq, UserRecords.getUserState_putUserState, if_neg fun hown ↦ ?_]
      obtain ⟨hworkspace, huser⟩ := UserState.isOf_iff.mp hown
      exact hother.elim (fun hne ↦ hne hworkspace.symm) fun hne ↦ hne huser.symm
  own := by
    rw [getUserState_reset_self, getUserState_forget_self]
    cases hstate : Store.getUserState workspace user s with
    | none => exact .inl rfl
    | some state =>
      obtain ⟨rfl, rfl⟩ := UserState.isOf_iff.mp (UserRecords.isOf_getUserState hstate)
      exact .inr ⟨rfl, rfl⟩

omit [UserList σ] [DetachedUsers σ] in
theorem reset_reset (workspace user : String) (s : σ) :
    reset workspace user (reset workspace user s) = reset workspace user s := by
  have hstored := getUserState_reset_self workspace user s
  rcases reset_cases workspace user (reset workspace user s) with ⟨-, heq⟩ | ⟨state, hstate, heq⟩
  · exact heq
  · obtain ⟨old, -, rfl⟩ := Option.map_eq_some_iff.mp (hstored.symm.trans hstate)
    rw [heq]
    exact putUserState_of_stored hstate

omit [UserList σ] [DetachedUsers σ] in
/-- A user who is known stays known. -/
theorem known_kept (workspace user : String) :
    Kept fun s : σ ↦ (Store.getUserState workspace user s).isSome := by
  have hsame (s : σ) := UserRecords.getUserState_kept (σ := σ) workspace user
    (Store.getUserState workspace user s)
  refine ⟨⟨fun f s hs ↦ ?_, fun f expected s hs ↦ ?_, fun asked id s hs ↦ ?_,
    fun asked id s hs ↦ ?_⟩, fun state s hs ↦ ?_, fun events s hs ↦ ?_⟩
  · rw [(hsame s).insertFlow f s rfl]
    exact hs
  · rw [(hsame s).saveFlow f expected s rfl]
    exact hs
  · rw [(hsame s).archiveFlow asked id s rfl]
    exact hs
  · rw [(hsame s).restoreFlow asked id s rfl]
    exact hs
  · rw [UserRecords.getUserState_putUserState]
    split
    · rfl
    · exact hs
  · rw [UserRecords.getUserState_recordEvents]
    exact hs

end Begin

/-- What can be relied on after a reset, in comparison with the store that has no record of the
user. -/
structure StartsAfresh (workspace user : String) (s : σ) : Prop where
  /-- All answers are the same, but for looks at the record itself. -/
  answers (requests : List Request) (hlooks : ∀ r ∈ requests, ¬ r.LooksAt workspace user) :
    (Session.run (reset workspace user s) requests).1 =
      (Session.run (forget workspace user s) requests).1
  /-- At all times the record is the same, or it has never been written and is empty. -/
  stored (requests : List Request) :
    Store.getUserState workspace user (Session.after (reset workspace user s) requests) =
        Store.getUserState workspace user (Session.after (forget workspace user s) requests) ∨
      Store.getUserState workspace user (Session.after (reset workspace user s) requests) =
          some { workspace, user } ∧
        Store.getUserState workspace user (Session.after (forget workspace user s) requests) = none
  /-- From the first write on the record is there and the same. -/
  written (before later : List Request) (r : Request)
    (hputs : r.Puts workspace user (Session.after (forget workspace user s) before)) :
    ∃ state,
      Store.getUserState workspace user
        (Session.after (reset workspace user s) (before ++ r :: later)) = some state ∧
      Store.getUserState workspace user
        (Session.after (forget workspace user s) (before ++ r :: later)) = some state
  /-- The reset empties the record and changes nothing else. -/
  unchanged : reset workspace user s =
    withUsers (modifyFirst (UserState.isOf workspace user) UserState.reset (users s)) s
  twice : reset workspace user (reset workspace user s) = reset workspace user s

section Runs

variable [DetachedUsers σ] [UserRecords σ]

omit [UserList σ] [DetachedUsers σ] in
theorem Request.Puts.known {r : Request} (h : r.Puts workspace user s) :
    (Store.getUserState workspace user (r.perform s).2).isSome := by
  cases h with
  | @enrolled profile now selected huser h =>
    obtain rfl := huser
    simp only [Request.perform, Prod.map, id_eq, EnrollmentRequest.perform]
    rw [getUserState_enroll h]
    rfl
  | @reported r now state h =>
    simp only [Request.perform, Prod.map, id_eq, EnrollmentRequest.perform]
    unfold report at h ⊢
    split at h
    next => cases h
    next hloud =>
      rw [if_neg hloud]
      cases houtcome : outcome? r with
      | error e =>
        rw [houtcome] at h
        cases h
      | ok outcome =>
        have hown := isOf_progress_stateOrNew r outcome now workspace user s
        simp only [getUserState_put_self hown, Option.isSome_some]
  | @put state h =>
    simp only [Request.perform, Prod.map, id_eq, StoreRequest.perform]
    rw [getUserState_put_self h]
    rfl

theorem startsAfresh (workspace user : String) (s : σ) : StartsAfresh workspace user s where
  answers requests hlooks := (merging_reset workspace user s).run hlooks
  stored requests := ((merging_reset workspace user s).after requests).own
  written before later r hputs := by
    have hknown : (Store.getUserState workspace user
        (Session.after (forget workspace user s) (before ++ r :: later))).isSome := by
      rw [Session.after_append]
      exact Session.after_keeps (known_kept workspace user) hputs.known later
    obtain ⟨state, hstate⟩ := Option.isSome_iff_exists.mp hknown
    refine ⟨state, ?_, hstate⟩
    rcases ((merging_reset workspace user s).after (before ++ r :: later)).own with
      hsame | ⟨-, hnone⟩
    · rw [hsame, hstate]
    · rw [hnone] at hstate
      nomatch hstate
  unchanged := reset_eq_withUsers workspace user s
  twice := reset_reset workspace user s

end Runs

/-- After a reset a user is a new one, in every store of either kind. -/
theorem reset_starts_afresh (workspace user : String) :
    (∀ s : ListStore, StartsAfresh workspace user s) ∧
    ∀ t : TableStore, StartsAfresh workspace user t :=
  ⟨fun s ↦ startsAfresh workspace user s, fun t ↦ startsAfresh workspace user t⟩

/-- A user enrolls and goes on while an editor withdraws the flow. -/
def returning (now : Moment) : List Request := [
  .enrollment "w" (.enroll { externalId := "u" } now),
  .editor {} "w" (.edit Desk.draft.id.text (.setLive false)),
  .enrollment "w" (.report "u" { currentStepId := some "s" } now),
  .enrollment "w" (.enroll { externalId := "u" } now)]

/-- After a reset the finished flow is chosen again. -/
theorem reset_starts_afresh_returning :
    let now := Desk.draft.createdAt
    let s : ListStore :=
      { active := [{ Desk.draft with live := true }]
        users := [{ workspace := "w", user := "u", completed := .insert .empty Desk.draft.id }] }
    (enroll "w" { externalId := "u" } now (reset "w" "u" s)).1 =
      .ok (some { Desk.draft with live := true }) ∧
    (∀ r ∈ returning now, ¬ r.LooksAt "w" "u") ∧
    (Session.run (reset "w" "u" s) (returning now)).1 =
      (Session.run (forget "w" "u" s) (returning now)).1 ∧
    ∃ state,
      Store.getUserState "w" "u" (Session.after (reset "w" "u" s) (returning now)) = some state ∧
      Store.getUserState "w" "u" (Session.after (forget "w" "u" s) (returning now)) =
        some state := by
  intro now s
  have hstart : StartsAfresh "w" "u" s := (reset_starts_afresh "w" "u").1 s
  have hlooks : ∀ r ∈ returning now, ¬ r.LooksAt "w" "u" := by simp [returning, Request.LooksAt]
  have hfirst : (enroll "w" { externalId := "u" } now (forget "w" "u" s)).1 =
      .ok (some { Desk.draft with live := true }) := rfl
  have hwritten := hstart.written [] (returning now).tail
    (.enrollment "w" (.enroll { externalId := "u" } now)) (.enrolled rfl hfirst)
  have hsome : (enroll "w" { externalId := "u" } now (reset "w" "u" s)).1 =
      .ok (some { Desk.draft with live := true }) := rfl
  exact ⟨hsome, hlooks, hstart.answers (returning now) hlooks, hwritten⟩

end GuidedTours
