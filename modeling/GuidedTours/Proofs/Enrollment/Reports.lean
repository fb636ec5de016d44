import GuidedTours.Proofs.Enrollment.Summary
import GuidedTours.Proofs.Enrollment.Users

/-!
What the reports about a user add up to. The finished and the skipped flows and the last submission
are read off the reports that were answered with a state, whatever else happens in between: they do
not depend on the order of the reports, and repeating one of them changes none of them.
-/

set_option autoImplicit false

namespace GuidedTours

open Enrollment

section Runs

variable {σ : Type} [Store σ] {s : σ} {workspace user : String} {r : ProgressReport} {now : Moment}
  {request : Request} {requests : List Request} {reports : List TimedReport} {x : TimedReport}

theorem ProgressReport.silent_iff (r : ProgressReport) :
    (!r.finished ∧ !r.skipped ∧ named? r.currentStepId = none) ↔
      ¬ r.HasOutcome ∧ named? r.currentStepId = none := by
  simp [HasOutcome, and_assoc]

/-- A report that counts is answered with the state that is put. -/
theorem report_of_counts (h : r.Counts) (workspace user : String) (now : Moment) (s : σ) :
    report workspace user r now s =
      (.ok (some (progress r r.flow? now (stateOrNew workspace user s))),
        Store.putUserState (progress r r.flow? now (stateOrNew workspace user s)) s) := by
  have hspeaks : ¬ (¬ r.HasOutcome ∧ named? r.currentStepId = none) := by
    rintro ⟨hnone, hstep⟩
    rw [ProgressReport.Counts, if_neg hnone, hstep] at h
    exact Bool.false_ne_true h
  rw [report, if_neg (mt r.silent_iff.mp hspeaks)]
  simp only [h.outcome?]

/-- Any other report is rejected or ignored. -/
theorem report_of_not_counts (h : ¬ r.Counts) (workspace user : String) (now : Moment) (s : σ) :
    (report workspace user r now s).2 = s ∧
      ∀ state, (report workspace user r now s).1 ≠ .ok (some state) := by
  by_cases houtcome : r.HasOutcome
  · rw [ProgressReport.Counts, if_pos houtcome] at h
    rcases parseFlowId_cases r.flowId with ⟨-, hparse⟩ | ⟨id, hid, -⟩
    · have herror : outcome? r = .error (.malformedFlowId r.flowId) := by
        rw [outcome?, hparse]
        exact if_pos houtcome
      rw [report, if_neg (mt r.silent_iff.mp fun hsilent ↦ hsilent.1 houtcome)]
      simp [herror]
    · exact absurd (Option.isSome_iff_exists.mpr ⟨id, hid⟩) h
  · rw [ProgressReport.Counts, if_neg houtcome, Option.not_isSome_iff_eq_none] at h
    rw [report, if_pos (r.silent_iff.mpr ⟨houtcome, h⟩)]
    simp

/-- The report that a request to the enrollment of a workspace makes about a user. -/
def Request.report? (workspace user : String) : Request → Option TimedReport
  | .enrollment asked (.report who report now) =>
    if asked = workspace ∧ who = user then some { report, now } else none
  | _ => none

theorem Request.report?_eq_some_iff :
    request.report? workspace user = some x ↔
      request = .enrollment workspace (.report user x.report x.now) := by
  constructor
  · intro h
    unfold report? at h
    split at h
    next asked who report now =>
      split at h
      next hsame =>
        obtain rfl := Option.some.inj h
        rw [hsame.1, hsame.2]
      next => nomatch h
    next => nomatch h
  · rintro rfl
    simp [report?]

namespace Session

/-- The report would be answered with a state. -/
def isAnswered (workspace user : String) (s : σ) (x : TimedReport) : Bool :=
  match (report workspace user x.report x.now s).1 with
  | .ok (some _) => true
  | _ => false

/-- The reports about a user that are answered with a state in the course of a session. -/
def answeredReports (workspace user : String) : σ → List Request → List TimedReport
  | _, [] => []
  | s, r :: rest =>
    ((r.report? workspace user).filter (isAnswered workspace user s)).toList ++
      answeredReports workspace user (r.perform s).2 rest

theorem answeredReports_cons (workspace user : String) (s : σ) (request : Request)
    (rest : List Request) :
    answeredReports workspace user s (request :: rest) =
      answeredReports workspace user s [request] ++
        answeredReports workspace user (request.perform s).2 rest := by
  simp [answeredReports]

theorem isAnswered_iff : isAnswered workspace user s x ↔ x.report.Counts := by
  by_cases h : x.report.Counts
  · simp [isAnswered, report_of_counts h, h]
  · have hnone := (report_of_not_counts h workspace user x.now s).2
    unfold isAnswered
    split
    next state heq => exact absurd heq (hnone state)
    next => simp [h]

/-- Whether a report is answered with a state does not depend on the session. -/
theorem answeredReports_eq (workspace user : String) (s : σ) (requests : List Request) :
    answeredReports workspace user s requests =
      (requests.filterMap (Request.report? workspace user)).filter fun x ↦ x.report.Counts := by
  induction requests generalizing s with
  | nil => rfl
  | cons request rest ih =>
    have hanswered : isAnswered workspace user s = fun x ↦ decide x.report.Counts := by
      funext x
      rw [Bool.eq_iff_iff, isAnswered_iff, decide_eq_true_iff]
    rw [answeredReports, ih, hanswered, List.filterMap_cons]
    cases request.report? workspace user with
    | none => rfl
    | some x =>
      rw [List.filter_cons, Option.filter_some]
      split <;> rfl

end Session

variable [UserRecords σ]

theorem getUserState_report (h : r.Counts) (workspace user : String) (now : Moment) (s : σ) :
    Store.getUserState workspace user (report workspace user r now s).2 =
      some (progress r r.flow? now (stateOrNew workspace user s)) := by
  rw [report_of_counts h]
  exact getUserState_put_self (isOf_progress_stateOrNew r r.flow? now workspace user s) s

/-- Reporting twice is answered twice with the same, and the store is as after the first time. -/
theorem report_report (workspace user : String) (r : ProgressReport) (now : Moment) (s : σ) :
    report workspace user r now (report workspace user r now s).2 =
      report workspace user r now s := by
  by_cases h : r.Counts
  · have hstored := getUserState_report h workspace user now s
    obtain ⟨hworkspace, huser⟩ := UserState.isOf_iff.mp (UserRecords.isOf_getUserState hstored)
    rw [report_of_counts h workspace user now (report workspace user r now s).2,
      stateOrNew_of_some hstored, progress_progress,
      UserRecords.putUserState_of_get (by rw [hworkspace, huser, hstored])]
    rw [report_of_counts h]
  · rw [(report_of_not_counts h workspace user now s).1]

/-- Requests other than the reports that count leave all but the current flow as it is. -/
theorem stateOrNew_perform (hputs : request.PutsNone)
    (hreset : request ≠ .enrollment workspace (.reset user))
    (h : ∀ x, request.report? workspace user = some x → ¬ x.report.Counts) :
    ∃ flow, stateOrNew workspace user (request.perform s).2 =
      { stateOrNew workspace user s with currentFlow := flow } := by
  rcases request.getUserState_perform hputs workspace user s with
    hsame | ⟨asked, state, rfl, hadvance, hnew⟩
  · exact ⟨_, by rw [stateOrNew, hsame, ← stateOrNew]⟩
  · cases hadvance with
    | @chosen profile now selected huser henroll =>
      rw [stateOrNew_of_some hnew]
      cases selected <;> exact ⟨_, rfl⟩
    | @reported r now outcome houtcome =>
      have hignored : ¬ r.Counts := h { report := r, now } (Request.report?_eq_some_iff.mpr rfl)
      have hstore : (Request.perform s (.enrollment workspace (.report user r now))).2 = s :=
        (report_of_not_counts hignored workspace user now s).1
      rw [hstore]
      exact ⟨_, rfl⟩
    | forgotten old => exact absurd rfl hreset

/-- The request neither writes user states by itself nor makes the enrollment forget this user. -/
def Request.KeepsRecord (workspace user : String) (request : Request) : Prop :=
  request.PutsNone ∧ request ≠ .enrollment workspace (.reset user)

theorem sumsUp_perform (h : (stateOrNew workspace user s).SumsUp reports)
    (hrequest : request.KeepsRecord workspace user) :
    (stateOrNew workspace user (request.perform s).2).SumsUp
      (reports ++ Session.answeredReports workspace user s [request]) := by
  rw [Session.answeredReports_eq, List.filterMap_cons]
  cases hreport : request.report? workspace user with
  | none =>
    obtain ⟨flow, heq⟩ := stateOrNew_perform (s := s) hrequest.1 hrequest.2 fun x hx ↦ by
      rw [hreport] at hx
      nomatch hx
    rw [heq]
    simpa using h.withCurrentFlow flow
  | some x =>
    by_cases hcounts : x.report.Counts
    · rw [Request.report?_eq_some_iff.mp hreport]
      have hnew : stateOrNew workspace user
          (Request.perform s (.enrollment workspace (.report user x.report x.now))).2 =
            progress x.report x.report.flow? x.now (stateOrNew workspace user s) :=
        stateOrNew_of_some (getUserState_report hcounts workspace user x.now s)
      rw [hnew]
      simpa [hcounts] using h.progress hcounts
    · obtain ⟨flow, heq⟩ := stateOrNew_perform (s := s) hrequest.1 hrequest.2 fun y hy ↦ by
        rw [← Option.some.inj (hreport.symm.trans hy)]
        exact hcounts
      rw [heq]
      simpa [hcounts] using h.withCurrentFlow flow

theorem sumsUp_after (h : (stateOrNew workspace user s).SumsUp reports)
    (hrequests : ∀ r ∈ requests, r.KeepsRecord workspace user) :
    (stateOrNew workspace user (Session.after s requests)).SumsUp
      (reports ++ Session.answeredReports workspace user s requests) := by
  induction requests generalizing s reports with
  | nil => exact (List.append_nil reports).symm ▸ h
  | cons request rest ih =>
    have hfirst := sumsUp_perform h (hrequests request List.mem_cons_self)
    rw [Session.answeredReports_cons, ← List.append_assoc]
    exact ih hfirst fun r hr ↦ hrequests r (List.mem_cons_of_mem request hr)

/-- The user has no state, or has just been reset. -/
def Fresh (workspace user : String) (s : σ) : Prop :=
  Store.getUserState workspace user s = none ∨ ∃ before : σ, s = reset workspace user before

theorem Fresh.sumsUp (h : Fresh workspace user s) : (stateOrNew workspace user s).SumsUp [] := by
  have hnone : ∀ t : σ, Store.getUserState workspace user t = none →
      (stateOrNew workspace user t).SumsUp [] := by
    intro t ht
    rw [stateOrNew, ht, Option.getD_none]
    exact .new workspace user
  rcases h with h | ⟨before, rfl⟩
  · exact hnone s h
  · rcases reset_cases workspace user before with ⟨hbefore, heq⟩ | ⟨state, hstate, heq⟩
    · rw [heq]
      exact hnone before hbefore
    · have hold : state.isOf workspace user := UserRecords.isOf_getUserState hstate
      have hself : state.reset.isOf workspace user := hold
      rw [heq, stateOrNew_of_some (getUserState_put_self hself before)]
      exact .new state.workspace state.user

theorem isSome_getUserState_after (h : (Store.getUserState workspace user s).isSome)
    (hrequests : ∀ r ∈ requests, r.PutsNone) :
    (Store.getUserState workspace user (Session.after s requests)).isSome := by
  have hstep : ∀ (s : σ) (r : Request), (Store.getUserState workspace user s).isSome →
      r.PutsNone → (Store.getUserState workspace user (r.perform s).2).isSome := by
    intro s r hs hr
    rcases r.getUserState_perform hr workspace user s with hsame | ⟨-, state, -, -, hnew⟩
    · rw [hsame]
      exact hs
    · rw [hnew]
      rfl
  exact Session.after_of_forall hstep h hrequests

theorem isSome_getUserState_of_answered (hrequests : ∀ r ∈ requests, r.PutsNone)
    (h : Session.answeredReports workspace user s requests ≠ []) :
    (Store.getUserState workspace user (Session.after s requests)).isSome := by
  induction requests generalizing s with
  | nil => exact absurd rfl h
  | cons request rest ih =>
    have hrest : ∀ r ∈ rest, r.PutsNone := fun r hr ↦ hrequests r (List.mem_cons_of_mem request hr)
    by_cases hfirst : Session.answeredReports workspace user s [request] = []
    · rw [Session.answeredReports_cons, hfirst, List.nil_append] at h
      exact ih hrest h
    · refine isSome_getUserState_after (s := (request.perform s).2) ?_ hrest
      rw [Session.answeredReports_eq] at hfirst
      obtain ⟨x, hx⟩ := List.exists_mem_of_ne_nil _ hfirst
      obtain ⟨hmem, hcounts⟩ := List.mem_filter.mp hx
      have hreport : request.report? workspace user = some x := by simpa using hmem
      rw [Request.report?_eq_some_iff.mp hreport]
      have hstored := getUserState_report (of_decide_eq_true hcounts) workspace user x.now s
      exact Option.isSome_iff_exists.mpr ⟨_, hstored⟩

/-- What holds of the reports about a user in sessions that begin with the user fresh. -/
structure AddUp (σ : Type) [Store σ] (workspace user : String) (requests : List Request) :
    Prop where
  stored : ∀ s : σ, Session.answeredReports workspace user s requests ≠ [] →
    (Store.getUserState workspace user (Session.after s requests)).isSome
  summedUp : ∀ s : σ, Fresh workspace user s → ∀ state,
    Store.getUserState workspace user (Session.after s requests) = some state →
    state.SumsUp (Session.answeredReports workspace user s requests)
  /-- A report that is repeated at once changes nothing at all. -/
  repeatedAtOnce : ∀ (s : σ) r now, report workspace user r now (report workspace user r now s).2 =
    report workspace user r now s
  /-- A report that is repeated later changes at most the step. -/
  repeated : ∀ s : σ, Fresh workspace user s →
    ∀ x ∈ Session.answeredReports workspace user s requests, ∀ state later,
    Store.getUserState workspace user (Session.after s requests) = some state →
    (report workspace user x.report x.now (Session.after s requests)).1 = .ok (some later) →
    state.completed = later.completed ∧ state.skipped = later.skipped ∧
      state.lastSubmittedAt = later.lastSubmittedAt ∧
      state.lastSubmittedFlow = later.lastSubmittedFlow
  reordered : ∀ s s' : σ, Fresh workspace user s → Fresh workspace user s' →
    ∀ requests', requests.Perm requests' → ∀ state state',
    Store.getUserState workspace user (Session.after s requests) = some state →
    Store.getUserState workspace user (Session.after s' requests') = some state' →
    state.completed = state'.completed ∧ state.skipped = state'.skipped ∧
      state.lastSubmittedAt = state'.lastSubmittedAt ∧
      (DistinctTimes (Session.answeredReports workspace user s requests) →
        state.lastSubmittedFlow = state'.lastSubmittedFlow)

theorem addUp (h : ∀ r ∈ requests, r.KeepsRecord workspace user) :
    AddUp σ workspace user requests := by
  have hsums : ∀ (s : σ) (requests : List Request), Fresh workspace user s →
      (∀ r ∈ requests, r.KeepsRecord workspace user) → ∀ state,
      Store.getUserState workspace user (Session.after s requests) = some state →
      state.SumsUp (Session.answeredReports workspace user s requests) := by
    intro s requests hs hrequests state hstate
    have hsum := sumsUp_after hs.sumsUp hrequests
    rwa [stateOrNew_of_some hstate] at hsum
  refine ⟨fun s ↦ isSome_getUserState_of_answered fun r hr ↦ (h r hr).1,
    fun s hs ↦ hsums s requests hs h, fun s r now ↦ report_report workspace user r now s,
    fun s hs x hx state later hstate hlater ↦ ?_,
    fun s s' hs hs' requests' hperm state state' hstate hstate' ↦ ?_⟩
  · have hsum := hsums s requests hs h state hstate
    have hcounts : x.report.Counts := by
      rw [Session.answeredReports_eq] at hx
      exact of_decide_eq_true (List.mem_filter.mp hx).2
    rw [report_of_counts hcounts, stateOrNew_of_some hstate] at hlater
    obtain rfl := Option.some.inj (Except.ok.inj hlater)
    exact hsum.of_mem (hsum.progress hcounts) hx
  · have hrequests' : ∀ r ∈ requests', r.KeepsRecord workspace user :=
      fun r hr ↦ h r (hperm.mem_iff.mpr hr)
    refine (hsums s requests hs h state hstate).of_perm
      (hsums s' requests' hs' hrequests' state' hstate') ?_
    rw [Session.answeredReports_eq, Session.answeredReports_eq]
    exact (hperm.filterMap _).filter _

end Runs

/-- What is recorded of a user follows from the reports alone, whoever else uses the store. -/
theorem reports_add_up {workspace user : String} {requests : List Request}
    (h : ∀ r ∈ requests, r.KeepsRecord workspace user) :
    AddUp ListStore workspace user requests ∧ AddUp TableStore workspace user requests :=
  ⟨addUp h, addUp h⟩

/-- A user skips a flow that somebody else finishes, and finishes it later on. -/
def skippedThenFinished : List Request := [
  .enrollment "w" (.report "u" { flowId := Desk.draft.id.text, skipped := true }
    Desk.draft.createdAt),
  .enrollment "w" (.report "v" { flowId := Desk.draft.id.text, finished := true }
    Desk.draft.createdAt),
  .enrollment "w" (.enroll { externalId := "u" } Desk.draft.createdAt),
  .enrollment "w" (.report "u" { flowId := Desk.draft.id.text, finished := true }
    Desk.draft.createdAt)]

theorem reports_add_up_skipped_then_finished :
    (∀ r ∈ skippedThenFinished, r.KeepsRecord "w" "u") ∧
      AddUp ListStore "w" "u" skippedThenFinished ∧ AddUp TableStore "w" "u" skippedThenFinished ∧
      (Session.answeredReports "w" "u" (Store.empty : ListStore) skippedThenFinished).length = 2 ∧
      ((Store.getUserState "w" "u"
        (Session.after (Store.empty : ListStore) skippedThenFinished)).map fun state ↦
          (state.completed.ids, state.skipped.ids)) = some ([Desk.draft.id], []) := by
  have hkeeps : ∀ r ∈ skippedThenFinished, r.KeepsRecord "w" "u" := by
    simp [skippedThenFinished, Request.KeepsRecord, Request.PutsNone]
  exact ⟨hkeeps, (reports_add_up hkeeps).1, (reports_add_up hkeeps).2, by rfl, by rfl⟩

end GuidedTours
