import GuidedTours.Enrollment.Eligibility
import Mathlib.Data.List.Basic

/-!
The rule by which flows are offered. A live flow may be offered to a user if all that it depends on
is finished, the flow itself is neither finished nor skipped, and the user is in its audience. The
general audience meets one rule of each kind that occurs, and there is none where a rule names
users; the users who are named meet no other rule. What eligibility computes is this rule.
-/

set_option autoImplicit false

namespace GuidedTours

inductive RuleKind where
  | elapsedDays
  | registeredAfter
  | userSegment
  | userId
deriving DecidableEq

def TargetingRule.kind : TargetingRule → RuleKind
  | .elapsedDays _ => .elapsedDays
  | .registeredAfter _ => .registeredAfter
  | .userSegment _ => .userSegment
  | .userId _ => .userId

/-- Nanoseconds since the start of 1970, leap seconds apart. -/
def Moment.unixNanosecond (m : Moment) : Int :=
  m.unixSecond * nanosecondsPerSecond + m.nanosecond

theorem Moment.nanosecondsSince_eq {m : Moment} (hm : m.isLeapSecond = false) (start : Int) :
    m.nanosecondsSince start = m.unixNanosecond - start * nanosecondsPerSecond := by
  have hleap : ¬ (m.isLeapSecond ∧ start % 86400 ≤ m.secondOfDay) := by simp [hm]
  simp only [nanosecondsSince, unixNanosecond, if_neg hleap]
  rw [Int.add_zero, Int.sub_mul]
  omega

/-- The id is among those that are texts of the list; other texts are passed over. -/
def Names (texts : List String) (id : FlowId) : Prop :=
  ∃ text ∈ texts, FlowId.parseEntered? text = some id

namespace EnrollmentOpts

variable {opts : EnrollmentOpts} {now : Moment} {f : Flow}

def SignedUpAt (opts : EnrollmentOpts) (second : Int64) : Prop :=
  opts.signUpTimestamp = some second ∧ second ≠ 0

/-- What a rule asks of a user. Days since a sign-up that no date has are not known. -/
def Meets (opts : EnrollmentOpts) (now : Moment) : TargetingRule → Prop
  | .elapsedDays days => ∃ second, opts.SignedUpAt second ∧
    (Moment.firstSecond ≤ second.toInt ∧ second.toInt ≤ Moment.lastSecond) ∧
    days.toInt ≤ (now.unixNanosecond - second.toInt * nanosecondsPerSecond).tdiv
      (86400 * nanosecondsPerSecond)
  | .registeredAfter first => ∃ second, opts.SignedUpAt second ∧ first ≤ second
  | .userSegment name => opts.userSegment = some name ∧ name ≠ ""
  | .userId user => opts.userId = some user ∧ user ≠ ""

/-- Of one kind there are no rules, or one of them is met. -/
def MeetsKind (opts : EnrollmentOpts) (now : Moment) (rules : List TargetingRule)
    (kind : RuleKind) : Prop :=
  (∀ r ∈ rules, r.kind ≠ kind) ∨ ∃ r ∈ rules, r.kind = kind ∧ opts.Meets now r

structure InGeneralAudience (opts : EnrollmentOpts) (now : Moment) (f : Flow) : Prop where
  nobodyNamed : ∀ r ∈ f.opts.targeting.rules, r.kind ≠ .userId
  elapsedDays : opts.MeetsKind now f.opts.targeting.rules .elapsedDays
  registeredAfter : opts.MeetsKind now f.opts.targeting.rules .registeredAfter
  userSegment : opts.MeetsKind now f.opts.targeting.rules .userSegment

def IsNamedBy (opts : EnrollmentOpts) (now : Moment) (f : Flow) : Prop :=
  ∃ r ∈ f.opts.targeting.rules, r.kind = .userId ∧ opts.Meets now r

/-- The flow may be offered. -/
structure Offerable (opts : EnrollmentOpts) (now : Moment) (f : Flow) : Prop where
  live : f.live
  dependenciesFinished : ∀ id ∈ f.opts.dependsOn, Names opts.finishedIds id
  notFinished : ¬ Names opts.finishedIds f.id
  notSkipped : ¬ Names opts.skippedIds f.id
  audience : opts.InGeneralAudience now f ∨ opts.IsNamedBy now f

end EnrollmentOpts

/-- The outcomes of the rules of a kind decide on it. -/
theorem absentOrAny_filterMap_iff (check : TargetingRule → Option Bool) {kind : RuleKind}
    {P : TargetingRule → Prop} (hnone : ∀ r, check r = none ↔ r.kind ≠ kind)
    (htrue : ∀ r, check r = some true ↔ r.kind = kind ∧ P r) (rules : List TargetingRule) :
    absentOrAny (rules.filterMap check) ↔
      (∀ r ∈ rules, r.kind ≠ kind) ∨ ∃ r ∈ rules, r.kind = kind ∧ P r := by
  have habsent : (rules.filterMap check).isEmpty ↔ ∀ r ∈ rules, r.kind ≠ kind := by
    rw [List.isEmpty_iff, List.filterMap_eq_nil_iff]
    exact forall₂_congr fun r _ ↦ hnone r
  have hany : (rules.filterMap check).any id ↔ ∃ r ∈ rules, r.kind = kind ∧ P r := by
    rw [List.any_eq_true]
    constructor
    · rintro ⟨outcome, hmem, houtcome⟩
      obtain ⟨r, hr, hcheck⟩ := List.mem_filterMap.mp hmem
      exact ⟨r, hr, (htrue r).mp (hcheck.trans (congrArg some houtcome))⟩
    · rintro ⟨r, hr, hmeets⟩
      exact ⟨true, List.mem_filterMap.mpr ⟨r, hr, (htrue r).mpr hmeets⟩, rfl⟩
  rw [absentOrAny, Bool.or_eq_true, habsent, hany]

namespace Eligibility

variable {opts : EnrollmentOpts} {now : Moment} {f : Flow}

theorem contains_parsed_iff {texts : List String} {id : FlowId} :
    (texts.filterMap FlowId.parseEntered?).contains id ↔ Names texts id := by
  simp [Names, List.mem_filterMap]

theorem dependenciesMet_iff : (of opts now).dependenciesMet f ↔
    ∀ id ∈ f.opts.dependsOn, Names opts.finishedIds id := by
  rw [dependenciesMet, List.all_eq_true]
  exact forall₂_congr fun id _ ↦ contains_parsed_iff

theorem excluded_iff : (of opts now).excluded f ↔
    Names opts.finishedIds f.id ∨ Names opts.skippedIds f.id := by
  rw [excluded, Bool.or_eq_true]
  exact or_congr contains_parsed_iff contains_parsed_iff

theorem signUp_eq_some_iff (now : Moment) {second : Int64} :
    (of opts now).signUp = some second ↔ opts.SignedUpAt second := by
  simp [of, EnrollmentOpts.SignedUpAt, Option.filter_eq_some_iff]

theorem elapsedDays?_eq_true_iff (hnow : now.isLeapSecond = false) (r : TargetingRule) :
    (of opts now).elapsedDays? r = some true ↔ r.kind = .elapsedDays ∧ opts.Meets now r := by
  cases r with
  | elapsedDays days =>
    have hdays : ∀ second : Int64, (now.wholeDaysSince? second.toInt).any (days.toInt ≤ ·) ↔
        (Moment.firstSecond ≤ second.toInt ∧ second.toInt ≤ Moment.lastSecond) ∧
        days.toInt ≤ (now.unixNanosecond - second.toInt * nanosecondsPerSecond).tdiv
          (86400 * nanosecondsPerSecond) := by
      intro second
      rw [Moment.wholeDaysSince?, Moment.nanosecondsSince_eq hnow]
      split
      next hsecond => simp [hsecond]
      next hsecond => simp [hsecond]
    have helapsed : (of opts now).elapsedDays =
        (of opts now).signUp.bind fun second ↦ now.wholeDaysSince? second.toInt := rfl
    simp only [elapsedDays?, helapsed, Option.some.injEq, TargetingRule.kind, true_and,
      EnrollmentOpts.Meets, ← hdays, ← signUp_eq_some_iff now]
    cases (of opts now).signUp <;> simp
  | registeredAfter _ | userSegment _ | userId _ => simp [elapsedDays?, TargetingRule.kind]

theorem registeredAfter?_eq_true_iff (r : TargetingRule) :
    (of opts now).registeredAfter? r = some true ↔
      r.kind = .registeredAfter ∧ opts.Meets now r := by
  cases r with
  | registeredAfter first =>
    simp only [registeredAfter?, Option.some.injEq, TargetingRule.kind, true_and,
      EnrollmentOpts.Meets, ← signUp_eq_some_iff now]
    cases (of opts now).signUp <;> simp
  | elapsedDays _ | userSegment _ | userId _ => simp [registeredAfter?, TargetingRule.kind]

theorem userSegment?_eq_true_iff (r : TargetingRule) :
    (of opts now).userSegment? r = some true ↔ r.kind = .userSegment ∧ opts.Meets now r := by
  cases r with
  | userSegment name =>
    simp only [userSegment?, of, Option.some.injEq, TargetingRule.kind, true_and,
      EnrollmentOpts.Meets, ← named?_eq_some_iff]
    exact decide_eq_true_iff
  | elapsedDays _ | registeredAfter _ | userId _ => simp [userSegment?, TargetingRule.kind]

theorem generalAudience_iff (hnow : now.isLeapSecond = false) :
    (of opts now).generalAudience f ↔ opts.InGeneralAudience now f := by
  have hnamed : (!f.opts.targeting.rules.any namesUser) ↔
      ∀ r ∈ f.opts.targeting.rules, r.kind ≠ .userId := by
    rw [Bool.not_eq_true', List.any_eq_false]
    refine forall₂_congr fun r _ ↦ ?_
    cases r <;> simp [namesUser, TargetingRule.kind]
  have helapsed := absentOrAny_filterMap_iff (of opts now).elapsedDays?
    (fun r ↦ by cases r <;> simp [elapsedDays?, TargetingRule.kind])
    (elapsedDays?_eq_true_iff hnow) f.opts.targeting.rules
  have hregistered := absentOrAny_filterMap_iff (of opts now).registeredAfter?
    (fun r ↦ by cases r <;> simp [registeredAfter?, TargetingRule.kind])
    registeredAfter?_eq_true_iff f.opts.targeting.rules
  have hsegment := absentOrAny_filterMap_iff (of opts now).userSegment?
    (fun r ↦ by cases r <;> simp [userSegment?, TargetingRule.kind])
    userSegment?_eq_true_iff f.opts.targeting.rules
  simp only [generalAudience, Bool.and_eq_true, hnamed, helapsed, hregistered, hsegment]
  constructor
  · rintro ⟨⟨⟨hnobody, hdays⟩, hfirst⟩, hname⟩
    exact ⟨hnobody, hdays, hfirst, hname⟩
  · rintro ⟨hnobody, hdays, hfirst, hname⟩
    exact ⟨⟨⟨hnobody, hdays⟩, hfirst⟩, hname⟩

theorem explicitTarget_iff : (of opts now).explicitTarget f ↔ opts.IsNamedBy now f := by
  have hrules : opts.IsNamedBy now f ↔
      ∃ user, named? opts.userId = some user ∧ .userId user ∈ f.opts.targeting.rules := by
    constructor
    · rintro ⟨r, hr, hkind, hmeets⟩
      cases r with
      | userId user => exact ⟨user, named?_eq_some_iff.mpr hmeets, hr⟩
      | elapsedDays _ | registeredAfter _ | userSegment _ => nomatch hkind
    · rintro ⟨user, huser, hr⟩
      exact ⟨.userId user, hr, rfl, named?_eq_some_iff.mp huser⟩
  have huser : (of opts now).userId = named? opts.userId := rfl
  rw [hrules, explicitTarget, huser]
  cases named? opts.userId <;> simp

theorem accepts_iff (hnow : now.isLeapSecond = false) :
    f.live && (of opts now).accepts f ↔ opts.Offerable now f := by
  rw [Bool.and_eq_true, accepts, Bool.and_eq_true, Bool.and_eq_true, Bool.or_eq_true,
    dependenciesMet_iff, generalAudience_iff hnow, explicitTarget_iff, Bool.not_eq_true',
    ← Bool.not_eq_true, excluded_iff, not_or]
  constructor
  · rintro ⟨hlive, ⟨hdependencies, hfinished, hskipped⟩, haudience⟩
    exact ⟨hlive, hdependencies, hfinished, hskipped, haudience⟩
  · rintro ⟨hlive, hdependencies, hfinished, hskipped, haudience⟩
    exact ⟨hlive, ⟨hdependencies, hfinished, hskipped⟩, haudience⟩

end Eligibility

end GuidedTours
