import GuidedTours.Proofs.Enrollment.Resolution
import GuidedTours.Proofs.FlowIds

/-!
The progress of one user. No flow is both finished and skipped, and the current one is neither: a
report keeps it so, since it gives up a current flow that it concludes, and so does a choice of a
flow, since only a flow that is not concluded is chosen unless it is the current one already.
-/

set_option autoImplicit false

namespace GuidedTours

open Enrollment

variable {id : FlowId} {state : UserState} {r : ProgressReport} {outcome : Option FlowId}
  {now : Moment}

namespace UserState

/-- The flow has been finished or skipped. -/
def Concluded (state : UserState) (id : FlowId) : Prop :=
  id ∈ state.completed.ids ∨ id ∈ state.skipped.ids

structure Consistent (state : UserState) : Prop where
  disjoint : ∀ id ∈ state.completed.ids, id ∉ state.skipped.ids
  current : ∀ id, state.currentFlow = some id → ¬ state.Concluded id

theorem consistent_new (workspace user : String) : Consistent { workspace, user } :=
  ⟨fun _ h ↦ absurd h List.not_mem_nil, fun id h ↦ absurd h.symm (Option.some_ne_none id)⟩

theorem consistent_reset (state : UserState) : state.reset.Consistent :=
  consistent_new state.workspace state.user

/-- A submission gives up the flow if it is the current one, and it is the last one unless one of
the same or a later moment is known. -/
theorem submit_eq (flow : FlowId) (now : Moment) (s : UserState) :
    s.submit flow now = { s with
      currentFlow := s.currentFlow.filter (· ≠ flow)
      lastSubmittedFlow :=
        if s.lastSubmittedAt.all (· < now) then some flow else s.lastSubmittedFlow
      lastSubmittedAt :=
        if s.lastSubmittedAt.all (· < now) then some now else s.lastSubmittedAt } := by
  have hcurrent : (if s.currentFlow = some flow then { s with currentFlow := none } else s) =
      { s with currentFlow := s.currentFlow.filter (· ≠ flow) } := by
    cases hflow : s.currentFlow with
    | none =>
      rw [if_neg (Option.some_ne_none flow).symm, Option.filter_none, ← hflow]
    | some current =>
      by_cases hsame : current = flow
      · rw [if_pos (congrArg some hsame), Option.filter_some_neg (by simpa using hsame)]
      · rw [if_neg fun h ↦ hsame (Option.some.inj h),
          Option.filter_some_pos (by simpa using hsame), ← hflow]
  rw [submit, hcurrent]
  cases hlast : s.lastSubmittedAt with
  | none => rfl
  | some last =>
    by_cases hlater : last < now
    · simp [hlater]
    · simp [hlater]

theorem completed_submit (flow : FlowId) (now : Moment) (s : UserState) :
    (s.submit flow now).completed = s.completed := by
  rw [submit_eq]

theorem skipped_submit (flow : FlowId) (now : Moment) (s : UserState) :
    (s.submit flow now).skipped = s.skipped := by
  rw [submit_eq]

theorem currentFlow_submit {flow : FlowId} {s : UserState} :
    (s.submit flow now).currentFlow = some id ↔ s.currentFlow = some id ∧ flow ≠ id := by
  rw [submit_eq, Option.filter_eq_some_iff, decide_eq_true_iff, ne_comm]

theorem workspace_submit (flow : FlowId) (now : Moment) (s : UserState) :
    (s.submit flow now).workspace = s.workspace := by
  rw [submit_eq]

theorem user_submit (flow : FlowId) (now : Moment) (s : UserState) :
    (s.submit flow now).user = s.user := by
  rw [submit_eq]

end UserState

namespace Enrollment

/-- The report is about this flow and gives it an outcome. -/
def Concludes (r : ProgressReport) (outcome : Option FlowId) (id : FlowId) : Prop :=
  (r.finished ∨ r.skipped) ∧ outcome = some id

theorem completed_progress : id ∈ (progress r outcome now state).completed.ids ↔
    id ∈ state.completed.ids ∨ r.finished ∧ outcome = some id := by
  unfold progress
  cases outcome with
  | none => simp
  | some flow =>
    cases r.finished <;> cases r.skipped <;>
      simp [UserState.completed_submit, FlowIdSet.mem_insert, or_comm, eq_comm]

theorem skipped_progress : id ∈ (progress r outcome now state).skipped.ids ↔
    (id ∈ state.skipped.ids ∨ r.skipped ∧ outcome = some id) ∧
      id ∉ (progress r outcome now state).completed.ids := by
  rw [completed_progress]
  unfold progress
  cases outcome with
  | none => simp [FlowIdSet.mem_diff]
  | some flow =>
    cases r.finished <;> cases r.skipped <;>
      simp [UserState.completed_submit, UserState.skipped_submit, FlowIdSet.mem_diff,
        FlowIdSet.mem_insert, or_comm, eq_comm]

theorem currentFlow_progress : (progress r outcome now state).currentFlow = some id ↔
    state.currentFlow = some id ∧ ¬ Concludes r outcome id := by
  unfold progress Concludes
  cases outcome with
  | none => simp
  | some flow =>
    cases r.finished <;> cases r.skipped <;> simp [UserState.currentFlow_submit]

theorem isOf_progress (workspace user : String) :
    (progress r outcome now state).isOf workspace user = state.isOf workspace user := by
  unfold progress
  cases outcome with
  | none => rfl
  | some flow =>
    cases r.finished <;> cases r.skipped <;>
      simp [UserState.isOf, UserState.workspace_submit, UserState.user_submit]

theorem concluded_progress_iff : (progress r outcome now state).Concluded id ↔
    state.Concluded id ∨ Concludes r outcome id := by
  rw [UserState.Concluded, UserState.Concluded, skipped_progress, completed_progress, Concludes]
  tauto

/-- Every report keeps a state consistent. -/
theorem consistent_progress (h : state.Consistent) (r : ProgressReport) (outcome : Option FlowId)
    (now : Moment) : (progress r outcome now state).Consistent := by
  refine ⟨fun id hcompleted hskipped ↦ (skipped_progress.mp hskipped).2 hcompleted,
    fun id hcurrent hconcluded ↦ ?_⟩
  obtain ⟨hbefore, hreport⟩ := currentFlow_progress.mp hcurrent
  rcases concluded_progress_iff.mp hconcluded with hstate | hnew
  · exact h.current id hbefore hstate
  · exact hreport hnew

end Enrollment

/-- Texts of ids name just these ids. -/
theorem names_texts_iff {ids : List FlowId} : Names (ids.map FlowId.text) id ↔ id ∈ ids := by
  constructor
  · rintro ⟨text, htext, hid⟩
    obtain ⟨other, hother, rfl⟩ := List.mem_map.mp htext
    rw [FlowId.parseEntered?_text] at hid
    exact Option.some.inj hid ▸ hother
  · intro hid
    exact ⟨id.text, List.mem_map_of_mem hid, FlowId.parseEntered?_text id⟩

/-- A flow that a user in some state may get from a shelf: the current one, or with no current one
any that is not concluded and whose dependencies are finished. -/
structure UserState.MayGet (state : UserState) (shelf : List Flow) (f : Flow) : Prop where
  mem : f ∈ shelf
  live : f.live
  choice : state.currentFlow = some f.id ∨ state.currentFlow = none ∧
    ¬ state.Concluded f.id ∧ ∀ id ∈ f.opts.dependsOn, id ∈ state.completed.ids

theorem UserState.MayGet.not_concluded {state : UserState} {shelf : List Flow} {f : Flow}
    (h : state.MayGet shelf f) (hstate : state.Consistent) : ¬ state.Concluded f.id := by
  rcases h.choice with hcurrent | ⟨-, hnew, -⟩
  · exact hstate.current f.id hcurrent
  · exact hnew

theorem UserState.MayGet.consistent {state : UserState} {shelf : List Flow} {f : Flow}
    (h : state.MayGet shelf f) (hstate : state.Consistent) :
    (enrolled (some f) state).Consistent := by
  refine ⟨hstate.disjoint, fun id hcurrent ↦ ?_⟩
  obtain rfl : f.id = id := Option.some.inj hcurrent
  exact h.not_concluded hstate

namespace Enrollment

theorem resolveOn_ofState (state : UserState) (profile : UserProfile) (now : Moment)
    (shelf : List Flow) :
    ∃ selected, resolveOn (.ofState state profile) now shelf = .ok selected ∧
      ∀ f, selected = some f → state.MayGet shelf f := by
  cases hcurrent : state.currentFlow with
  | some id =>
    have htext : (EnrollmentOpts.ofState state profile).currentEnrollmentId = some id.text := by
      rw [EnrollmentOpts.ofState, hcurrent, Option.map_some]
    refine ⟨liveOn id shelf, ?_, fun f hf ↦ ?_⟩
    · rw [resolveOn_of_current htext id.text_ne_empty, parseFlowId, FlowId.parseEntered?_text]
      rfl
    · obtain ⟨hfind, hlive⟩ := liveOn_eq_some_iff.mp hf
      have hid : f.id = id := by simpa using List.find?_some hfind
      exact ⟨List.mem_of_find?_eq_some hfind, hlive, .inl (hid ▸ hcurrent)⟩
  | none =>
    have hnone : ∀ raw, (EnrollmentOpts.ofState state profile).currentEnrollmentId = some raw →
        raw = "" := by
      simp [EnrollmentOpts.ofState, hcurrent]
    refine ⟨_, resolveOn_of_no_current hnone shelf, fun f hf ↦ ?_⟩
    have hchosen := List.find?_some hf
    simp only [Eligibility.accepts, Bool.and_eq_true, Bool.not_eq_true', ← Bool.not_eq_true,
      Eligibility.dependenciesMet_iff, Eligibility.excluded_iff] at hchosen
    obtain ⟨hlive, ⟨hdependencies, hexcluded⟩, -⟩ := hchosen
    refine ⟨List.mem_of_find?_eq_some hf, hlive, .inr ⟨hcurrent, ?_, fun id hid ↦ ?_⟩⟩
    · rw [UserState.Concluded, ← names_texts_iff, ← names_texts_iff]
      exact hexcluded
    · exact names_texts_iff.mp (hdependencies id hid)

end Enrollment

end GuidedTours
