import GuidedTours.Analytics
import GuidedTours.Proofs.Ascending
import GuidedTours.Proofs.Lists
import Mathlib.Data.List.Induction

/-!
Analytics as a function of what each user did. The visits that are gathered from a list of events
are one for each step and user with a start or a finish, with the first time of either, and these
times are found among the events of the user alone. So lists of events in which every user has done
the same, in the same order, have the same visits but for their order, and counts, means and sums do
not depend on it.
-/

set_option autoImplicit false

namespace GuidedTours

variable {events events' : List TrackedEvent} {step user : String} {kind : EventKind}

namespace TrackedEvent

/-- Every user has done the same in both lists. -/
def SameByUser (events events' : List TrackedEvent) : Prop :=
  ∀ user, events.filter (·.user = user) = events'.filter (·.user = user)

namespace SameByUser

open Classical in
theorem perm (h : SameByUser events events') : events.Perm events' := by
  refine List.perm_iff_count.mpr fun e ↦ ?_
  have hcount : ∀ es : List TrackedEvent, (es.filter (·.user = e.user)).count e = es.count e :=
    fun es ↦ List.count_filter (by simp)
  rw [← hcount events, h e.user, hcount events']

end SameByUser

def isStep (kind : EventKind) (step user : String) (e : TrackedEvent) : Bool :=
  e.kind = kind && e.step? = some step && e.user = user

theorem isStep_iff {e : TrackedEvent} :
    isStep kind step user e ↔ e.kind = kind ∧ e.step? = some step ∧ e.user = user := by
  simp [isStep, and_assoc]

end TrackedEvent

open TrackedEvent

/-- When the user first did this at the step. -/
def firstTime? (kind : EventKind) (step user : String) (events : List TrackedEvent) :
    Option Int64 :=
  (events.find? (isStep kind step user)).map TrackedEvent.timestamp

theorem firstTime?_congr (h : SameByUser events events') :
    firstTime? kind step user events = firstTime? kind step user events' := by
  have hown : ∀ e, isStep kind step user e → decide (e.user = user) :=
    fun e he ↦ decide_eq_true (isStep_iff.mp he).2.2
  rw [firstTime?, firstTime?, ← find?_filter_of_forall hown, h user, find?_filter_of_forall hown]

theorem firstTime?_concat (e : TrackedEvent) :
    firstTime? kind step user (events ++ [e]) = (firstTime? kind step user events).or
      (if isStep kind step user e then some e.timestamp else none) := by
  rw [firstTime?, List.find?_append, Option.map_or, ← firstTime?]
  refine congrArg _ ?_
  by_cases he : isStep kind step user e
  · simp [he]
  · simp [he]

namespace StepVisit

variable {visits visits' : List StepVisit} {change : StepVisit → StepVisit} {v : StepVisit}

theorem isOf_iff : v.isOf step user ↔ v.step = step ∧ v.user = user := by
  simp [isOf]

def key (v : StepVisit) : String × String := (v.step, v.user)

/-- The visit of the step by the user as the events tell it. -/
def told? (step user : String) (events : List TrackedEvent) : Option StepVisit :=
  let v : StepVisit := ⟨step, user, firstTime? .flowStepStart step user events,
    firstTime? .flowStepFinish step user events⟩
  if v.start.isSome || v.finish.isSome then some v else none

theorem isOf_of_key {w : StepVisit} (h : w.key = v.key) : w.isOf step user = v.isOf step user := by
  obtain ⟨hstep, huser⟩ := Prod.mk.inj h
  rw [isOf, isOf, hstep, huser]

theorem find?_note_self (hchange : ∀ v, (change v).key = v.key) :
    (note step user change visits).find? (isOf step user) =
      some (change ((visits.find? (isOf step user)).getD ⟨step, user, none, none⟩)) := by
  unfold note
  split
  next hany =>
    obtain ⟨v, hv⟩ :=
      Option.isSome_iff_exists.mp (List.find?_isSome.mpr (List.any_eq_true.mp hany))
    rw [find?_modifyFirst_self fun v hv ↦ (isOf_of_key (hchange v)).trans hv, hv,
      Option.map_some, Option.getD_some]
  next hany =>
    have hnone : visits.find? (isOf step user) = none := by simpa using hany
    rw [List.find?_append, hnone, Option.getD_none, Option.none_or, List.find?_cons_of_pos]
    rw [isOf_of_key (hchange _)]
    exact isOf_iff.mpr ⟨rfl, rfl⟩

theorem find?_note_of_ne (hchange : ∀ v, (change v).key = v.key) {step' user' : String}
    (hne : ¬ (step = step' ∧ user = user')) :
    (note step user change visits).find? (isOf step' user') =
      visits.find? (isOf step' user') := by
  have hmiss : ∀ v : StepVisit, v.isOf step user → ¬ v.isOf step' user' := by
    intro v hv hv'
    obtain ⟨rfl, rfl⟩ := isOf_iff.mp hv
    exact hne (isOf_iff.mp hv')
  unfold note
  split
  next =>
    refine find?_modifyFirst_of_forall hmiss fun v hv ↦ ?_
    rw [isOf_of_key (hchange v)]
    exact hmiss v hv
  next =>
    rw [List.find?_append, List.find?_cons_of_neg, List.find?_nil, Option.or_none]
    rw [isOf_of_key (hchange _)]
    exact hmiss _ (isOf_iff.mpr ⟨rfl, rfl⟩)

theorem nodup_note (hchange : ∀ v, (change v).key = v.key) (h : (visits.map key).Nodup) :
    ((note step user change visits).map key).Nodup := by
  unfold note
  split
  next => rwa [map_modifyFirst fun v _ ↦ hchange v]
  next hany =>
    refine nodup_map_append_singleton.mpr ⟨h, fun v hv hkey ↦ hany ?_⟩
    rw [hchange] at hkey
    exact List.any_eq_true.mpr ⟨v, hv, isOf_iff.mpr (Prod.mk.inj hkey)⟩

/-- The visit with the time of an event noted in it. -/
def noted (e : TrackedEvent) (v : StepVisit) : StepVisit :=
  match e.kind with
  | .flowStepStart => { v with start := v.start.or (some e.timestamp) }
  | .flowStepFinish => { v with finish := v.finish.or (some e.timestamp) }
  | _ => v

theorem key_noted (e : TrackedEvent) (v : StepVisit) : (noted e v).key = v.key := by
  unfold noted
  split <;> rfl

/-- Only starts and finishes of steps are taken into account. -/
theorem record_cases (visits : List StepVisit) (e : TrackedEvent) :
    (∃ step, e.step? = some step ∧ (e.kind = .flowStepStart ∨ e.kind = .flowStepFinish) ∧
      record visits e = note step e.user (noted e) visits) ∨
    (∀ step user, ¬ isStep .flowStepStart step user e ∧ ¬ isStep .flowStepFinish step user e) ∧
      record visits e = visits := by
  cases hstep : e.step? with
  | none => exact .inr ⟨by simp [isStep, hstep], by simp [record, hstep]⟩
  | some step =>
    cases hkind : e.kind with
    | flowStepStart =>
      have hnoted : noted e = fun v ↦ { v with start := v.start.or (some e.timestamp) } :=
        funext fun v ↦ by simp [noted, hkind]
      exact .inl ⟨step, rfl, .inl rfl, by simp [record, hkind, hstep, hnoted]⟩
    | flowStepFinish =>
      have hnoted : noted e = fun v ↦ { v with finish := v.finish.or (some e.timestamp) } :=
        funext fun v ↦ by simp [noted, hkind]
      exact .inl ⟨step, rfl, .inr rfl, by simp [record, hkind, hstep, hnoted]⟩
    | _ => exact .inr ⟨by simp [isStep, hkind], by simp [record, hkind, hstep]⟩

theorem ofEvents_concat (events : List TrackedEvent) (e : TrackedEvent) :
    ofEvents (events ++ [e]) = record (ofEvents events) e := by
  rw [ofEvents, List.foldl_append]
  rfl

theorem nodup_ofEvents (events : List TrackedEvent) : ((ofEvents events).map key).Nodup := by
  induction events using List.reverseRecOn with
  | nil => exact List.nodup_nil
  | append_singleton events e ih =>
    rw [ofEvents_concat]
    rcases record_cases (ofEvents events) e with ⟨_, -, -, heq⟩ | ⟨-, heq⟩
    · rw [heq]
      exact nodup_note (key_noted e) ih
    · rwa [heq]

theorem getD_told? (step user : String) (events : List TrackedEvent) :
    (told? step user events).getD ⟨step, user, none, none⟩ =
      ⟨step, user, firstTime? .flowStepStart step user events,
        firstTime? .flowStepFinish step user events⟩ := by
  simp only [told?]
  split
  next => rfl
  next hnone =>
    simp only [Bool.or_eq_true, not_or, Bool.not_eq_true, Option.isSome_eq_false_iff,
      Option.isNone_iff_eq_none] at hnone
    rw [hnone.1, hnone.2]
    rfl

/-- An event that is neither a start nor a finish of the step by the user tells nothing of it. -/
theorem told?_concat_of_not {e : TrackedEvent} (hstart : ¬ isStep .flowStepStart step user e)
    (hfinish : ¬ isStep .flowStepFinish step user e) :
    told? step user (events ++ [e]) = told? step user events := by
  simp only [told?, firstTime?_concat, if_neg hstart, if_neg hfinish, Option.or_none]

theorem told?_concat {e : TrackedEvent} (hstep : e.step? = some step)
    (hkind : e.kind = .flowStepStart ∨ e.kind = .flowStepFinish) :
    told? step e.user (events ++ [e]) =
      some (noted e ((told? step e.user events).getD ⟨step, e.user, none, none⟩)) := by
  rw [getD_told?]
  rcases hkind with hkind | hkind
  · simp [told?, noted, firstTime?_concat, isStep, hkind, hstep]
  · simp [told?, noted, firstTime?_concat, isStep, hkind, hstep]

theorem find?_ofEvents (step user : String) (events : List TrackedEvent) :
    (ofEvents events).find? (isOf step user) = told? step user events := by
  induction events using List.reverseRecOn with
  | nil => rfl
  | append_singleton events e ih =>
    rw [ofEvents_concat]
    rcases record_cases (ofEvents events) e with ⟨step', hstep, hkind, heq⟩ | ⟨hnone, heq⟩
    · by_cases hsame : step' = step ∧ e.user = user
      · obtain ⟨rfl, rfl⟩ := hsame
        rw [heq, find?_note_self (key_noted e), ih, told?_concat hstep hkind]
      · have hother : ∀ kind, ¬ isStep kind step user e := by
          intro kind h
          obtain ⟨-, hstep', huser⟩ := isStep_iff.mp h
          exact hsame ⟨Option.some.inj (hstep.symm.trans hstep'), huser⟩
        rw [heq, find?_note_of_ne (key_noted e) hsame, ih,
          told?_concat_of_not (hother _) (hother _)]
    · rw [heq, ih, told?_concat_of_not (hnone step user).1 (hnone step user).2]

theorem mem_ofEvents : v ∈ ofEvents events ↔ told? v.step v.user events = some v := by
  rw [← find?_ofEvents]
  refine ⟨fun hv ↦ ?_, List.mem_of_find?_eq_some⟩
  have hsome : ((ofEvents events).find? (isOf v.step v.user)).isSome :=
    List.find?_isSome.mpr ⟨v, hv, isOf_iff.mpr ⟨rfl, rfl⟩⟩
  obtain ⟨w, hw⟩ := Option.isSome_iff_exists.mp hsome
  obtain ⟨hstep, huser⟩ := isOf_iff.mp (List.find?_some hw)
  rw [hw, List.inj_on_of_nodup_map (nodup_ofEvents events) (List.mem_of_find?_eq_some hw) hv
    (Prod.ext hstep huser)]

theorem ofEvents_perm (h : SameByUser events events') :
    (ofEvents events).Perm (ofEvents events') := by
  refine (List.perm_ext_iff_of_nodup (nodup_ofEvents events).of_map
    (nodup_ofEvents events').of_map).mpr fun v ↦ ?_
  rw [mem_ofEvents, mem_ofEvents, told?, told?]
  simp only [firstTime?_congr h]

end StepVisit

namespace FlowAnalytics

variable {visits visits' : List StepVisit}

theorem total_perm {durations durations' : List Int64} (h : durations.Perm durations') :
    total durations = total durations' :=
  h.foldl_eq' (fun x _ y _ z ↦ by rw [Int64.add_assoc, Int64.add_assoc, Int64.add_comm x y]) 0

theorem mean?_perm {durations durations' : List Int64} (h : durations.Perm durations') :
    mean? durations = mean? durations' := by
  have hnil : durations = [] ↔ durations' = [] := by
    rw [← List.length_eq_zero_iff, h.length_eq, List.length_eq_zero_iff]
  simp only [mean?, total_perm h, h.length_eq, hnil]

theorem stepTimes_perm (h : visits.Perm visits') : (stepTimes visits).Perm (stepTimes visits') := by
  have hmeans : ∀ step, mean? ((visits.filter (·.step = step)).filterMap StepVisit.duration?) =
      mean? ((visits'.filter (·.step = step)).filterMap StepVisit.duration?) :=
    fun step ↦ mean?_perm ((h.filter _).filterMap _)
  unfold stepTimes
  simp only [hmeans]
  exact (eraseDups_perm (h.map StepVisit.step)).filterMap _

theorem nodup_stepTimes (visits : List StepVisit) : ((stepTimes visits).map Prod.fst).Nodup := by
  have hsteps : ∀ steps : List String, (steps.filterMap fun step ↦
      (mean? ((visits.filter (·.step = step)).filterMap StepVisit.duration?)).map
        (step, ·)).map Prod.fst = steps.filter fun step ↦
      (mean? ((visits.filter (·.step = step)).filterMap StepVisit.duration?)).isSome := by
    intro steps
    rw [List.map_filterMap, ← List.filterMap_eq_filter]
    refine List.filterMap_congr fun step _ ↦ ?_
    cases hmean : mean? ((visits.filter (·.step = step)).filterMap StepVisit.duration?) with
    | none => simp [Option.guard, hmean]
    | some time => simp [Option.guard, hmean]
  rw [stepTimes, hsteps]
  exact (nodup_eraseDups _).filter _

/-- The analytics of a flow follow from what each user did. -/
theorem ofEvents_congr (flow : FlowId) (h : SameByUser events events') :
    ofEvents flow events = ofEvents flow events' := by
  have htimes := stepTimes_perm (StepVisit.ofEvents_perm h)
  have hviews := (eraseDups_perm (h.perm.map TrackedEvent.user)).length_eq
  have haverage := Dictionary.ofList_of_perm htimes (nodup_stepTimes _)
  have hcount : ∀ kind, countOf kind events = countOf kind events' :=
    fun kind ↦ congrArg UInt64.ofNat (h.perm.countP_eq _)
  simp only [ofEvents, hviews, haverage, hcount]

end FlowAnalytics

end GuidedTours
