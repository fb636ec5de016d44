import GuidedTours.Proofs.Enrollment.Analytics
import Mathlib.Algebra.BigOperators.Group.Finset.Basic
import Mathlib.Algebra.Ring.Int.Defs

/-!
Analytics by their definition. The time that a user took for a step runs from the first start to the
first finish among the user's own events, in whatever order these came, and the mean of a step is
taken over the users who have such a time. The table of visits that one pass over the events fills
holds these users once each, so its sums and counts are those over the set of users. The table has
machine words where the definition has integers. A sum of words is the word of the sum, so it is
exact if the sum itself is in range, whatever the differences and partial sums are.
-/

set_option autoImplicit false

namespace GuidedTours

open TrackedEvent

variable {events : List TrackedEvent} {step user : String} {n : Int}

/-- Numbers that a signed word of 64 bits holds. -/
def Fits (n : Int) : Prop := Int64.minValue.toInt ≤ n ∧ n ≤ Int64.maxValue.toInt

instance (n : Int) : Decidable (Fits n) := inferInstanceAs (Decidable (_ ∧ _))

namespace Fits

theorem toInt_ofInt (h : Fits n) : (Int64.ofInt n).toInt = n :=
  Int64.toInt_ofInt_of_le h.1 (Int.lt_add_one_iff.mpr h.2)

theorem tdiv (h : Fits n) (count : Nat) : Fits (n.tdiv count) := by
  have hcount : (0 : Int) ≤ count := Int.natCast_nonneg count
  have hmin : Int64.minValue.toInt = -9223372036854775808 := rfl
  have hmax : Int64.maxValue.toInt = 9223372036854775807 := rfl
  unfold Fits at h ⊢
  rcases Int.le_total 0 n with hn | hn
  · have hlower := Int.tdiv_nonneg hn hcount
    have hupper := Int.tdiv_le_self (count : Int) hn
    omega
  · have hneg : n.tdiv count = -(-n).tdiv count := by rw [Int.neg_tdiv, Int.neg_neg]
    have hlower := Int.tdiv_nonneg (Int.neg_nonneg_of_nonpos hn) hcount
    have hupper := Int.tdiv_le_self (count : Int) (Int.neg_nonneg_of_nonpos hn)
    omega

end Fits

theorem firstTime?_isSome {kind : EventKind} :
    (firstTime? kind step user events).isSome ↔ ∃ e ∈ events, isStep kind step user e := by
  rw [firstTime?, Option.isSome_map, List.find?_isSome]

/-- How long a user took for a step, if the user has both started and finished it. -/
def timeTaken? (step : String) (events : List TrackedEvent) (user : String) : Option Int :=
  (firstTime? .flowStepFinish step user events).bind fun finish ↦
    (firstTime? .flowStepStart step user events).map fun start ↦ finish.toInt - start.toInt

def visitors (events : List TrackedEvent) : Finset String :=
  (events.map TrackedEvent.user).toFinset

/-- The users with a time for a step. -/
def timedUsers (step : String) (events : List TrackedEvent) : Finset String :=
  (visitors events).filter fun user ↦ (timeTaken? step events user).isSome

def timeSum (step : String) (events : List TrackedEvent) : Int :=
  ∑ user ∈ timedUsers step events, (timeTaken? step events user).getD 0

/-- The mean over the users with a time, cut toward zero. -/
def meanTime (step : String) (events : List TrackedEvent) : Int :=
  (timeSum step events).tdiv (timedUsers step events).card

/-- The steps for which some user has a time. -/
def timedSteps (events : List TrackedEvent) : Finset String :=
  (events.filterMap TrackedEvent.step?).toFinset.filter fun step ↦
    (timedUsers step events).Nonempty

/-- No sum leaves the range of the times. -/
structure SumsFit (events : List TrackedEvent) : Prop where
  step : ∀ step ∈ timedSteps events, Fits (timeSum step events)
  total : Fits (∑ step ∈ timedSteps events, meanTime step events)

/-- A mean is no further from zero than its sum. -/
theorem SumsFit.toInt_mean (h : SumsFit events) (htimed : step ∈ timedSteps events) :
    (Int64.ofInt (meanTime step events)).toInt = meanTime step events :=
  ((h.step step htimed).tdiv _).toInt_ofInt

theorem timeTaken?_isSome : (timeTaken? step events user).isSome ↔
    (∃ e ∈ events, isStep .flowStepStart step user e) ∧
      ∃ e ∈ events, isStep .flowStepFinish step user e := by
  rw [← firstTime?_isSome, ← firstTime?_isSome, timeTaken?]
  cases firstTime? .flowStepFinish step user events <;> simp

theorem mem_timedUsers : user ∈ timedUsers step events ↔
    (∃ e ∈ events, isStep .flowStepStart step user e) ∧
      ∃ e ∈ events, isStep .flowStepFinish step user e := by
  rw [timedUsers, Finset.mem_filter, timeTaken?_isSome, and_iff_right_iff_imp]
  rintro ⟨⟨e, he, hstart⟩, -⟩
  exact List.mem_toFinset.mpr (List.mem_map.mpr ⟨e, he, (isStep_iff.mp hstart).2.2⟩)

theorem mem_timedSteps : step ∈ timedSteps events ↔ (timedUsers step events).Nonempty := by
  rw [timedSteps, Finset.mem_filter, and_iff_right_iff_imp]
  rintro ⟨user, huser⟩
  obtain ⟨⟨e, he, hstart⟩, -⟩ := mem_timedUsers.mp huser
  exact List.mem_toFinset.mpr (List.mem_filterMap.mpr ⟨e, he, (isStep_iff.mp hstart).2.1⟩)

namespace StepVisit

variable {v : StepVisit}

theorem duration?_of_mem (hv : v ∈ ofEvents events) :
    v.duration? = (timeTaken? v.step events v.user).map Int64.ofInt := by
  have htold := mem_ofEvents.mp hv
  simp only [told?, Option.ite_none_right_eq_some, Option.some.injEq] at htold
  rw [← htold.2, duration?, timeTaken?, Option.map_bind]
  simp only [Function.comp_def, Option.map_map, Int64.ofInt_sub, Int64.ofInt_toInt]

/-- The users with a time are those of the visits with a duration. -/
theorem timeTaken?_isSome_iff_exists : (timeTaken? step events user).isSome ↔
    ∃ v ∈ ofEvents events, v.step = step ∧ v.duration?.isSome ∧ v.user = user := by
  constructor
  · intro htime
    have hstart := firstTime?_isSome.mpr (timeTaken?_isSome.mp htime).1
    have hv : ⟨step, user, firstTime? .flowStepStart step user events,
        firstTime? .flowStepFinish step user events⟩ ∈ ofEvents events :=
      mem_ofEvents.mpr (by simp [told?, hstart])
    exact ⟨_, hv, rfl, by rwa [duration?_of_mem hv, Option.isSome_map], rfl⟩
  · rintro ⟨v, hv, rfl, hduration, rfl⟩
    rwa [duration?_of_mem hv, Option.isSome_map] at hduration

/-- The durations of a step are the times of its users, one of each. -/
theorem durations_eq (step : String) (events : List TrackedEvent) :
    ∃ users : List String, users.Nodup ∧ users.toFinset = timedUsers step events ∧
      ((ofEvents events).filter (·.step = step)).filterMap duration? =
        (users.map fun user ↦ (timeTaken? step events user).getD 0).map Int64.ofInt := by
  have hnodup : ((ofEvents events).filter (·.step = step)).Nodup :=
    (nodup_ofEvents events).of_map.filter _
  have hown : ∀ v, v ∈ (ofEvents events).filter (·.step = step) ↔
      v ∈ ofEvents events ∧ v.step = step := by simp
  generalize (ofEvents events).filter (·.step = step) = own at hnodup hown ⊢
  refine ⟨(own.filter (·.duration?.isSome)).map StepVisit.user, ?_, ?_, ?_⟩
  · refine (hnodup.filter _).map_on fun v hv w hw huser ↦ ?_
    obtain ⟨hv, hvstep⟩ := (hown v).mp (List.mem_of_mem_filter hv)
    obtain ⟨hw, hwstep⟩ := (hown w).mp (List.mem_of_mem_filter hw)
    exact List.inj_on_of_nodup_map (nodup_ofEvents events) hv hw
      (Prod.ext (hvstep.trans hwstep.symm) huser)
  · ext user
    rw [List.mem_toFinset, mem_timedUsers, ← timeTaken?_isSome, timeTaken?_isSome_iff_exists]
    simp [hown, and_assoc]
  · rw [List.map_map, List.map_map, ← List.filterMap_eq_map, List.filterMap_filter]
    refine List.filterMap_congr fun v hv ↦ ?_
    obtain ⟨hv, rfl⟩ := (hown v).mp hv
    simp only [Function.comp_apply, duration?_of_mem hv]
    cases timeTaken? v.step events v.user <;> rfl

end StepVisit

namespace FlowAnalytics

/-- The words of numbers add up to the word of their sum. -/
theorem total_map_ofInt (times : List Int) :
    total (times.map Int64.ofInt) = Int64.ofInt times.sum := by
  have hfrom : ∀ start : Int, (times.map Int64.ofInt).foldl (· + ·) (Int64.ofInt start) =
      Int64.ofInt (start + times.sum) := by
    induction times with
    | nil => simp
    | cons time times ih =>
      intro start
      rw [List.map_cons, List.foldl_cons, ← Int64.ofInt_add, ih, List.sum_cons, Int.add_assoc]
  rw [total, ← Int.zero_add times.sum, ← hfrom]
  rfl

/-- As long as the durations can be counted in a machine word, the mean is the quotient of two
words. -/
theorem mean?_eq_div {durations : List Int64} (hnonempty : durations ≠ [])
    (hcount : Fits durations.length) :
    mean? durations = some (total durations / Int64.ofInt durations.length) := by
  have htotal : Fits (total durations).toInt :=
    ⟨Int64.minValue_le_toInt _, Int64.toInt_le _⟩
  rw [mean?, if_neg hnonempty, Int64.ofInt_tdiv htotal.1 htotal.2 hcount.1 hcount.2,
    Int64.ofInt_toInt]

/-- From the lowest time to zero is one more than the highest, which wraps around. -/
example : (StepVisit.mk "intro" "ann" (some Int64.minValue) (some 0)).duration? =
    some Int64.minValue ∧ mean? [Int64.minValue, 0] = some (Int64.minValue / 2) := by
  decide

/-- While the sum of its times is in range, the mean of a step is exact. -/
theorem mean?_durations (h : SumsFit events) (step : String) :
    mean? (((StepVisit.ofEvents events).filter (·.step = step)).filterMap StepVisit.duration?) =
      if step ∈ timedSteps events then some (Int64.ofInt (meanTime step events)) else none := by
  obtain ⟨users, hnodup, husers, hdurations⟩ := StepVisit.durations_eq step events
  have hempty : users = [] ↔ step ∉ timedSteps events := by
    rw [mem_timedSteps, ← husers, List.toFinset_nonempty_iff, not_not]
  have hsum : (users.map fun user ↦ (timeTaken? step events user).getD 0).sum =
      timeSum step events := by
    rw [timeSum, ← husers, List.sum_toFinset _ hnodup]
  have hcount : users.length = (timedUsers step events).card := by
    rw [← husers, List.toFinset_card_of_nodup hnodup]
  simp only [hdurations, mean?, total_map_ofInt, hsum, List.length_map, hcount,
    List.map_eq_nil_iff, hempty, ite_not]
  by_cases htimed : step ∈ timedSteps events
  · rw [if_pos htimed, if_pos htimed, (h.step step htimed).toInt_ofInt, meanTime]
  · rw [if_neg htimed, if_neg htimed]

theorem mem_stepTimes (h : SumsFit events) {time : Int64} :
    (step, time) ∈ stepTimes (StepVisit.ofEvents events) ↔
      step ∈ timedSteps events ∧ time = Int64.ofInt (meanTime step events) := by
  have hvisited : step ∈ timedSteps events →
      step ∈ ((StepVisit.ofEvents events).map StepVisit.step).eraseDups := by
    intro htimed
    obtain ⟨user, huser⟩ := mem_timedSteps.mp htimed
    obtain ⟨v, hv, hstep, -⟩ :=
      StepVisit.timeTaken?_isSome_iff_exists.mp (timeTaken?_isSome.mpr (mem_timedUsers.mp huser))
    exact List.mem_eraseDups.mpr (List.mem_map.mpr ⟨v, hv, hstep⟩)
  simp only [stepTimes, mean?_durations h, List.mem_filterMap]
  constructor
  · rintro ⟨step', -, heq⟩
    by_cases htimed : step' ∈ timedSteps events
    · rw [if_pos htimed] at heq
      obtain ⟨rfl, rfl⟩ := Prod.mk.inj (Option.some.inj heq)
      exact ⟨htimed, rfl⟩
    · simp [if_neg htimed] at heq
  · rintro ⟨htimed, rfl⟩
    exact ⟨step, hvisited htimed, by rw [if_pos htimed]; rfl⟩

theorem get?_averageStepTime (flow : FlowId) (h : SumsFit events) {time : Int64} :
    (ofEvents flow events).averageStepTime.get? step = some time ↔
      step ∈ timedSteps events ∧ time = Int64.ofInt (meanTime step events) :=
  (Dictionary.get?_ofList_eq_some_iff (nodup_stepTimes _)).trans (mem_stepTimes h)

/-- The entries are the means. -/
theorem sum_averageStepTime (flow : FlowId) (h : SumsFit events) :
    ((ofEvents flow events).averageStepTime.entries.map fun entry ↦ entry.2.toInt).sum =
      ∑ step ∈ timedSteps events, meanTime step events := by
  have hperm : (ofEvents flow events).averageStepTime.entries.Perm
      (stepTimes (StepVisit.ofEvents events)) :=
    Ascending.ofList_perm (nodup_stepTimes _)
  have hsteps : ((stepTimes (StepVisit.ofEvents events)).map Prod.fst).toFinset =
      timedSteps events := by
    ext step
    simp [mem_stepTimes h]
  rw [(hperm.map _).sum_eq, ← hsteps, List.sum_toFinset _ (nodup_stepTimes _), List.map_map]
  refine congrArg List.sum (List.map_congr_left fun x hx ↦ ?_)
  obtain ⟨htimed, hmean⟩ := (mem_stepTimes h).mp hx
  rw [hmean]
  exact h.toInt_mean htimed

/-- The total is the word of the sum of the entries. -/
theorem averageTotalTime_eq (flow : FlowId) (events : List TrackedEvent) :
    (ofEvents flow events).averageTotalTime = Int64.ofInt
      ((ofEvents flow events).averageStepTime.entries.map fun entry ↦ entry.2.toInt).sum := by
  rw [← total_map_ofInt]
  simp only [List.map_map, Function.comp_def, Int64.ofInt_toInt]
  rfl

/-- Analytics as the events of a flow define them. -/
structure Measures (a : FlowAnalytics) (flow : FlowId) (events : List TrackedEvent) : Prop where
  flow : a.flow = flow
  timed : ∀ step, (a.averageStepTime.get? step).isSome ↔ ∃ user,
    (∃ e ∈ events, isStep .flowStepStart step user e) ∧
      ∃ e ∈ events, isStep .flowStepFinish step user e
  mean : ∀ step time, a.averageStepTime.get? step = some time →
    time.toInt = meanTime step events
  total : a.averageTotalTime.toInt =
    (a.averageStepTime.entries.map fun entry ↦ entry.2.toInt).sum
  views : a.views = UInt64.ofNat (visitors events).card
  finished : a.finished = UInt64.ofNat (events.countP (·.kind = .flowFinished))
  skipped : a.skipped = UInt64.ofNat (events.countP (·.kind = .flowSkipped))

/-- While no sum leaves the range of the times, the analytics are those that the events define. -/
theorem ofEvents_measures (flow : FlowId) (h : SumsFit events) :
    (ofEvents flow events).Measures flow events where
  flow := rfl
  timed step := by
    simp only [Option.isSome_iff_exists, get?_averageStepTime flow h, exists_and_left, exists_eq,
      and_true, mem_timedSteps, Finset.Nonempty, mem_timedUsers]
  mean step time hentry := by
    obtain ⟨htimed, rfl⟩ := (get?_averageStepTime flow h).mp hentry
    exact h.toInt_mean htimed
  total := by
    rw [averageTotalTime_eq, sum_averageStepTime flow h, h.total.toInt_ofInt]
  views := by
    have husers : (events.map TrackedEvent.user).eraseDups.toFinset = visitors events := by
      ext user
      simp [visitors]
    rw [← husers, List.toFinset_card_of_nodup (nodup_eraseDups _)]
    rfl
  finished := rfl
  skipped := rfl

/-- Two users have both ends of the first step, one of them in the wrong order; the other step has
its ends from two users. -/
def strolls : List TrackedEvent :=
  let event (user : String) (kind : EventKind) (timestamp : Int64) : TrackedEvent :=
    { user, entity := "f", kind, timestamp }
  [(event "ann" .flowStepFinish 10).withStep "intro",
    (event "ann" .flowStepStart 25).withStep "intro",
    (event "bob" .flowStepStart 0).withStep "intro",
    (event "bob" .flowStepFinish 8).withStep "intro",
    (event "bob" .flowStepFinish 90).withStep "intro",
    (event "ann" .flowStepStart 30).withStep "tour",
    (event "bob" .flowStepFinish 31).withStep "tour",
    event "ann" .flowStepStart 40,
    event "ann" .flowStepFinish 45,
    event "eve" .helperHover 50,
    event "bob" .flowFinished 100,
    event "bob" .flowFinished 101]

/-- The mean of -15 and 8 is cut to -3. -/
theorem ofEvents_measures_strolls :
    SumsFit strolls ∧ (ofEvents ⟨7⟩ strolls).Measures ⟨7⟩ strolls ∧
    (ofEvents ⟨7⟩ strolls).averageStepTime.entries = [("intro", -3)] ∧
    (ofEvents ⟨7⟩ strolls).views = 3 ∧ (ofEvents ⟨7⟩ strolls).finished = 2 := by
  have hfit : SumsFit strolls := ⟨by decide +kernel, by decide +kernel⟩
  exact ⟨hfit, ofEvents_measures ⟨7⟩ hfit, by decide +kernel, by decide +kernel, by decide +kernel⟩

end FlowAnalytics

end GuidedTours
