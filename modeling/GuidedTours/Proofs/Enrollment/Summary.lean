import GuidedTours.Proofs.Enrollment.Progress
import GuidedTours.Proofs.Moments
import GuidedTours.Proofs.Store.UserRecords
import Mathlib.Data.List.MinMax

/-!
A user state as the sum of reports. A flow is among the finished or the skipped ones if one of the
reports says so, and the last submission is that of the latest outcome. Taking in one more report
keeps this up, and what is summed up this way depends neither on the order of the reports nor on how
often one of them is repeated.
-/

set_option autoImplicit false

namespace GuidedTours

open Enrollment

instance : Preorder Moment where
  le a b := a.rank ≤ b.rank
  lt a b := a < b
  le_refl a := Int.le_refl a.rank
  le_trans _ _ _ := Int.le_trans
  lt_iff_le_not_ge _ _ := Int.lt_iff_le_and_not_ge

attribute [ext] UserState

/-- A report and the time at which it arrives. -/
structure TimedReport where
  report : ProgressReport
  now : Moment

namespace ProgressReport

def HasOutcome (r : ProgressReport) : Prop := r.finished ∨ r.skipped

instance (r : ProgressReport) : Decidable r.HasOutcome :=
  inferInstanceAs (Decidable (r.finished ∨ r.skipped))

/-- The flow that the report names, if it has an outcome. -/
def flow? (r : ProgressReport) : Option FlowId :=
  if r.HasOutcome then FlowId.parseEntered? r.flowId else none

/-- The report has an outcome of some flow, or at least a step. -/
def Counts (r : ProgressReport) : Prop :=
  if r.HasOutcome then (FlowId.parseEntered? r.flowId).isSome else (named? r.currentStepId).isSome

instance (r : ProgressReport) : Decidable r.Counts := by
  unfold Counts
  infer_instance

end ProgressReport

/-- The first of the latest reports with an outcome. -/
def latestOutcome? (reports : List TimedReport) : Option TimedReport :=
  (reports.filter fun x ↦ x.report.HasOutcome).argmax TimedReport.now

/-- The state is made up from the reports, in the order in which they arrived. -/
structure UserState.SumsUp (state : UserState) (reports : List TimedReport) : Prop where
  completed : ∀ id, id ∈ state.completed.ids ↔
    ∃ x ∈ reports, x.report.finished ∧ FlowId.parseEntered? x.report.flowId = some id
  skipped : ∀ id, id ∈ state.skipped.ids ↔
    (∃ x ∈ reports, x.report.skipped ∧ FlowId.parseEntered? x.report.flowId = some id) ∧
      id ∉ state.completed.ids
  lastSubmittedAt : state.lastSubmittedAt = (latestOutcome? reports).map TimedReport.now
  lastSubmittedFlow : state.lastSubmittedFlow =
    (latestOutcome? reports).bind fun x ↦ FlowId.parseEntered? x.report.flowId
  currentStep : state.currentStep = reports.getLast?.bind fun x ↦ named? x.report.currentStepId

section Progress

variable {r : ProgressReport} {now : Moment} {state : UserState} {id : FlowId}
  {reports : List TimedReport} {x : TimedReport}

theorem ProgressReport.Counts.outcome? (h : r.Counts) : outcome? r = .ok r.flow? := by
  by_cases houtcome : r.HasOutcome
  · rw [Counts, if_pos houtcome] at h
    obtain ⟨id, hid⟩ := Option.isSome_iff_exists.mp h
    rw [flow?, if_pos houtcome, hid]
    exact outcome?_eq_some_iff.mpr ⟨houtcome, hid⟩
  · rw [flow?, if_neg houtcome]
    exact if_neg houtcome

theorem mem_completed_progress (r : ProgressReport) :
    id ∈ (progress r r.flow? now state).completed.ids ↔
      id ∈ state.completed.ids ∨ r.finished ∧ FlowId.parseEntered? r.flowId = some id := by
  rw [completed_progress]
  refine or_congr_right (and_congr_right fun hfinished ↦ ?_)
  rw [ProgressReport.flow?, if_pos (.inl hfinished)]

theorem mem_skipped_progress (r : ProgressReport) :
    id ∈ (progress r r.flow? now state).skipped.ids ↔
      (id ∈ state.skipped.ids ∨ r.skipped ∧ FlowId.parseEntered? r.flowId = some id) ∧
        id ∉ (progress r r.flow? now state).completed.ids := by
  rw [skipped_progress]
  refine and_congr_left fun _ ↦ or_congr_right (and_congr_right fun hskipped ↦ ?_)
  rw [ProgressReport.flow?, if_pos (.inr hskipped)]

theorem currentStep_progress (r : ProgressReport) (outcome : Option FlowId) (now : Moment)
    (state : UserState) : (progress r outcome now state).currentStep = named? r.currentStepId := by
  unfold progress
  cases outcome with
  | none => rfl
  | some flow => cases r.finished <;> cases r.skipped <;> simp [UserState.submit_eq]

/-- A flow that is both finished and skipped is submitted twice, which is as good as once. -/
theorem submission_progress (flow : FlowId) (h : r.HasOutcome) (now : Moment)
    (state : UserState) :
    (progress r (some flow) now state).lastSubmittedAt =
        (if state.lastSubmittedAt.all (· < now) then some now else state.lastSubmittedAt) ∧
      (progress r (some flow) now state).lastSubmittedFlow =
        if state.lastSubmittedAt.all (· < now) then some flow else state.lastSubmittedFlow := by
  unfold progress
  cases hfinished : r.finished <;> cases hskipped : r.skipped
  · simp [ProgressReport.HasOutcome, hfinished, hskipped] at h
  · simp [UserState.submit_eq]
  · simp [UserState.submit_eq]
  · by_cases hlater : state.lastSubmittedAt.all (· < now)
    · simp [UserState.submit_eq, hlater]
    · simp [UserState.submit_eq, hlater]

theorem latestOutcome?_append_of_outcome (h : x.report.HasOutcome) :
    latestOutcome? (reports ++ [x]) =
      if (latestOutcome? reports).all (·.now < x.now) then some x else latestOutcome? reports := by
  rw [latestOutcome?, List.filter_append, List.filter_cons_of_pos (by simpa using h),
    List.filter_nil, List.argmax_concat, ← latestOutcome?]
  cases latestOutcome? reports with
  | none => rfl
  | some last =>
    by_cases hlater : last.now < x.now
    · simp [hlater]
    · simp [hlater]

theorem latestOutcome?_append_of_no_outcome (h : ¬ x.report.HasOutcome) :
    latestOutcome? (reports ++ [x]) = latestOutcome? reports := by
  rw [latestOutcome?, List.filter_append, List.filter_cons_of_neg (by simpa using h),
    List.filter_nil, List.append_nil, latestOutcome?]

/-- A report that is known already is not later than the latest one. -/
theorem latestOutcome?_append_of_mem (h : x ∈ reports) :
    latestOutcome? (reports ++ [x]) = latestOutcome? reports := by
  by_cases houtcome : x.report.HasOutcome
  · rw [latestOutcome?_append_of_outcome houtcome, if_neg]
    intro hall
    have hx : x ∈ reports.filter fun x ↦ x.report.HasOutcome :=
      List.mem_filter.mpr ⟨h, by simpa using houtcome⟩
    cases hlatest : latestOutcome? reports with
    | none => exact List.ne_nil_of_mem hx (List.argmax_eq_none.mp hlatest)
    | some last =>
      rw [hlatest] at hall
      have hlater : last.now < x.now := by simpa using hall
      exact absurd hlater (List.not_lt_of_mem_argmax hx hlatest)
  · exact latestOutcome?_append_of_no_outcome houtcome

theorem latestOutcome?_now_of_perm {reports' : List TimedReport} (h : reports.Perm reports') :
    (latestOutcome? reports).map TimedReport.now =
      (latestOutcome? reports').map TimedReport.now := by
  have hfilter := h.filter fun x ↦ x.report.HasOutcome
  cases hlast : latestOutcome? reports with
  | none =>
    have hnil := List.argmax_eq_none.mp hlast
    rw [hnil] at hfilter
    rw [latestOutcome?, hfilter.nil_eq.symm]
    rfl
  | some last =>
    cases hlast' : latestOutcome? reports' with
    | none =>
      have hnil := List.argmax_eq_none.mp hlast'
      rw [hnil] at hfilter
      rw [latestOutcome?, hfilter.eq_nil] at hlast
      nomatch hlast
    | some last' =>
      have hle : ¬ last'.now < last.now :=
        List.not_lt_of_mem_argmax (hfilter.mem_iff.mp (List.argmax_mem hlast)) hlast'
      have hge : ¬ last.now < last'.now :=
        List.not_lt_of_mem_argmax (hfilter.mem_iff.mpr (List.argmax_mem hlast')) hlast
      exact congrArg some
        (Moment.rank_injective (Int.le_antisymm (Int.not_lt.mp hle) (Int.not_lt.mp hge)))

/-- No two reports with an outcome are of the same time. -/
def DistinctTimes (reports : List TimedReport) : Prop :=
  ((reports.filter fun x ↦ x.report.HasOutcome).map TimedReport.now).Nodup

theorem latestOutcome?_of_perm {reports' : List TimedReport} (h : reports.Perm reports')
    (hdistinct : DistinctTimes reports) : latestOutcome? reports = latestOutcome? reports' := by
  have hnow := latestOutcome?_now_of_perm h
  cases hlast : latestOutcome? reports with
  | none =>
    rw [hlast] at hnow
    exact (Option.map_eq_none_iff.mp hnow.symm).symm
  | some last =>
    rw [hlast] at hnow
    obtain ⟨last', hlast', hsame⟩ := Option.map_eq_some_iff.mp hnow.symm
    have hmem' := (h.filter _).mem_iff.mpr (List.argmax_mem hlast')
    rw [hlast', List.inj_on_of_nodup_map hdistinct (List.argmax_mem hlast) hmem' hsame.symm]

namespace UserState.SumsUp

theorem new (workspace user : String) : SumsUp { workspace, user } [] where
  completed _ := ⟨fun h ↦ absurd h List.not_mem_nil, fun ⟨_, h, _⟩ ↦ absurd h List.not_mem_nil⟩
  skipped _ := ⟨fun h ↦ absurd h List.not_mem_nil, fun ⟨⟨_, h, _⟩, _⟩ ↦ absurd h List.not_mem_nil⟩
  lastSubmittedAt := rfl
  lastSubmittedFlow := rfl
  currentStep := rfl

/-- What flow is the current one has no part in it. -/
theorem withCurrentFlow (h : state.SumsUp reports) (flow : Option FlowId) :
    { state with currentFlow := flow }.SumsUp reports :=
  ⟨h.completed, h.skipped, h.lastSubmittedAt, h.lastSubmittedFlow, h.currentStep⟩

theorem submission (h : state.SumsUp reports) (hcounts : x.report.Counts) :
    (Enrollment.progress x.report x.report.flow? x.now state).lastSubmittedAt =
        (latestOutcome? (reports ++ [x])).map TimedReport.now ∧
      (Enrollment.progress x.report x.report.flow? x.now state).lastSubmittedFlow =
        (latestOutcome? (reports ++ [x])).bind fun x ↦ FlowId.parseEntered? x.report.flowId := by
  by_cases houtcome : x.report.HasOutcome
  · rw [ProgressReport.Counts, if_pos houtcome] at hcounts
    obtain ⟨flow, hflow⟩ := Option.isSome_iff_exists.mp hcounts
    have hlater : state.lastSubmittedAt.all (· < x.now) =
        (latestOutcome? reports).all (·.now < x.now) := by
      rw [h.lastSubmittedAt, Option.all_map]
    obtain ⟨hat, hlast⟩ := submission_progress flow houtcome x.now state
    rw [ProgressReport.flow?, if_pos houtcome, hflow, hat, hlast, hlater, h.lastSubmittedAt,
      h.lastSubmittedFlow, latestOutcome?_append_of_outcome houtcome]
    split
    next =>
      rw [Option.map_some, Option.bind_some, hflow]
      exact ⟨rfl, rfl⟩
    next => exact ⟨rfl, rfl⟩
  · rw [ProgressReport.flow?, if_neg houtcome, latestOutcome?_append_of_no_outcome houtcome]
    exact ⟨h.lastSubmittedAt, h.lastSubmittedFlow⟩

theorem progress (h : state.SumsUp reports) (hcounts : x.report.Counts) :
    (progress x.report x.report.flow? x.now state).SumsUp (reports ++ [x]) where
  completed id := by
    rw [mem_completed_progress, h.completed]
    simp [or_and_right, exists_or]
  skipped id := by
    rw [mem_skipped_progress, h.skipped]
    refine and_congr_left fun hnew ↦ ?_
    have hold : id ∉ state.completed.ids :=
      fun hid ↦ hnew ((mem_completed_progress x.report).mpr (.inl hid))
    simp [hold, or_and_right, exists_or]
  lastSubmittedAt := (h.submission hcounts).1
  lastSubmittedFlow := (h.submission hcounts).2
  currentStep := by
    rw [currentStep_progress, List.getLast?_concat]
    rfl

variable {state' : UserState} {reports' : List TimedReport}

/-- The order of the reports decides on the step alone, and among simultaneous submissions. -/
theorem of_perm (h : state.SumsUp reports) (h' : state'.SumsUp reports')
    (hperm : reports.Perm reports') :
    state.completed = state'.completed ∧ state.skipped = state'.skipped ∧
      state.lastSubmittedAt = state'.lastSubmittedAt ∧
      (DistinctTimes reports → state.lastSubmittedFlow = state'.lastSubmittedFlow) := by
  have hcompleted : state.completed = state'.completed :=
    FlowIdSet.ext_mem fun id ↦ by simp only [h.completed, h'.completed, hperm.mem_iff]
  refine ⟨hcompleted, FlowIdSet.ext_mem fun id ↦ ?_, ?_, fun hdistinct ↦ ?_⟩
  · simp only [h.skipped, h'.skipped, hcompleted, hperm.mem_iff]
  · rw [h.lastSubmittedAt, h'.lastSubmittedAt, latestOutcome?_now_of_perm hperm]
  · rw [h.lastSubmittedFlow, h'.lastSubmittedFlow, latestOutcome?_of_perm hperm hdistinct]

/-- A report that arrives once more changes at most the step. -/
theorem of_mem (h : state.SumsUp reports) (h' : state'.SumsUp (reports ++ [x]))
    (hx : x ∈ reports) :
    state.completed = state'.completed ∧ state.skipped = state'.skipped ∧
      state.lastSubmittedAt = state'.lastSubmittedAt ∧
      state.lastSubmittedFlow = state'.lastSubmittedFlow := by
  have hmem : ∀ y, y ∈ reports ++ [x] ↔ y ∈ reports := by
    intro y
    rw [List.mem_append, List.mem_singleton, or_iff_left_iff_imp]
    exact fun hy ↦ hy ▸ hx
  have hcompleted : state.completed = state'.completed :=
    FlowIdSet.ext_mem fun id ↦ by simp only [h.completed, h'.completed, hmem]
  refine ⟨hcompleted, FlowIdSet.ext_mem fun id ↦ ?_, ?_, ?_⟩
  · simp only [h.skipped, h'.skipped, hcompleted, hmem]
  · rw [h.lastSubmittedAt, h'.lastSubmittedAt, latestOutcome?_append_of_mem hx]
  · rw [h.lastSubmittedFlow, h'.lastSubmittedFlow, latestOutcome?_append_of_mem hx]

end UserState.SumsUp

/-- The same report at the same time changes nothing. -/
theorem progress_progress (r : ProgressReport) (now : Moment) (state : UserState) :
    progress r r.flow? now (progress r r.flow? now state) = progress r r.flow? now state := by
  have hkeys : ∀ s : UserState, (progress r r.flow? now s).workspace = s.workspace ∧
      (progress r r.flow? now s).user = s.user := by
    intro s
    rw [← UserState.isOf_iff, isOf_progress, UserState.isOf_iff]
    exact ⟨rfl, rfl⟩
  have hcompleted : (progress r r.flow? now (progress r r.flow? now state)).completed =
      (progress r r.flow? now state).completed := by
    refine FlowIdSet.ext_mem fun id ↦ ?_
    simp only [mem_completed_progress, or_assoc, or_self]
  have hlast : (progress r r.flow? now (progress r r.flow? now state)).lastSubmittedAt =
        (progress r r.flow? now state).lastSubmittedAt ∧
      (progress r r.flow? now (progress r r.flow? now state)).lastSubmittedFlow =
        (progress r r.flow? now state).lastSubmittedFlow := by
    cases hflow : r.flow? with
    | none => exact ⟨rfl, rfl⟩
    | some flow =>
      have houtcome : r.HasOutcome := by
        by_contra hnone
        rw [ProgressReport.flow?, if_neg hnone] at hflow
        nomatch hflow
      obtain ⟨hat, hlast⟩ := submission_progress flow houtcome now state
      obtain ⟨hagain, hlast'⟩ :=
        submission_progress flow houtcome now (progress r (some flow) now state)
      by_cases hlater : state.lastSubmittedAt.all (· < now)
      · rw [if_pos hlater] at hat hlast
        rw [hat, Option.all_some, if_neg (by simp)] at hagain hlast'
        exact ⟨hagain.trans hat.symm, hlast'⟩
      · rw [if_neg hlater] at hat hlast
        rw [hat, if_neg hlater] at hagain hlast'
        exact ⟨hagain.trans hat.symm, hlast'⟩
  refine UserState.ext ((hkeys _).1) ((hkeys _).2) (Option.ext fun id ↦ ?_) ?_ hcompleted
    (FlowIdSet.ext_mem fun id ↦ ?_) hlast.2 hlast.1
  · simp only [currentFlow_progress]
    tauto
  · rw [currentStep_progress, currentStep_progress]
  · rw [skipped_progress, hcompleted, skipped_progress]
    tauto

end Progress

end GuidedTours
