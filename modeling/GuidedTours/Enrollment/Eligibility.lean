import GuidedTours.Enrollment.Options
import GuidedTours.Flow

/-!
Which flows may be offered to a user. All that a flow depends on must be finished, the flow itself
neither finished nor skipped, and the user must belong to its general audience or be named by it.
-/

set_option autoImplicit false

namespace GuidedTours

/-- What is known of a user at some moment. -/
structure Eligibility where
  finished : List FlowId
  skipped : List FlowId
  signUp : Option Int64
  elapsedDays : Option Int
  segment : Option String
  userId : Option String

/-- Whether a list has no outcome at all or one that holds. -/
def absentOrAny (outcomes : List Bool) : Bool :=
  outcomes.isEmpty || outcomes.any id

namespace Eligibility

/-- Texts that are no flow ids are passed over. -/
def of (opts : EnrollmentOpts) (now : Moment) : Eligibility :=
  let signUp := opts.signUpTimestamp.filter (· ≠ 0)
  { finished := opts.finishedIds.filterMap FlowId.parseEntered?
    skipped := opts.skippedIds.filterMap FlowId.parseEntered?
    signUp
    elapsedDays := signUp.bind fun second ↦ now.wholeDaysSince? second.toInt
    segment := named? opts.userSegment
    userId := named? opts.userId }

def dependenciesMet (e : Eligibility) (f : Flow) : Bool :=
  f.opts.dependsOn.all e.finished.contains

def excluded (e : Eligibility) (f : Flow) : Bool :=
  e.finished.contains f.id || e.skipped.contains f.id

def elapsedDays? (e : Eligibility) : TargetingRule → Option Bool
  | .elapsedDays days => some (e.elapsedDays.any (days.toInt ≤ ·))
  | _ => none

def registeredAfter? (e : Eligibility) : TargetingRule → Option Bool
  | .registeredAfter second => some (e.signUp.any (second ≤ ·))
  | _ => none

def userSegment? (e : Eligibility) : TargetingRule → Option Bool
  | .userSegment name => some (e.segment = some name)
  | _ => none

def namesUser : TargetingRule → Bool
  | .userId _ => true
  | _ => false

/-- Every kind of rule that occurs has one that holds, and no rule names a user. -/
def generalAudience (e : Eligibility) (f : Flow) : Bool :=
  let rules := f.opts.targeting.rules
  !rules.any namesUser && absentOrAny (rules.filterMap e.elapsedDays?) &&
    absentOrAny (rules.filterMap e.registeredAfter?) &&
    absentOrAny (rules.filterMap e.userSegment?)

def explicitTarget (e : Eligibility) (f : Flow) : Bool :=
  match e.userId with
  | none => false
  | some user => f.opts.targeting.rules.contains (.userId user)

/-- Whether a flow may be offered, be it published or not. -/
def accepts (e : Eligibility) (f : Flow) : Bool :=
  e.dependenciesMet f && !e.excluded f && (e.generalAudience f || e.explicitTarget f)

end Eligibility

end GuidedTours
