/-!
Audience rules of a flow. Rules of one kind are alternatives, and every kind that occurs must be
satisfied. A rule that names a user takes the flow away from everybody who is not named.
-/

set_option autoImplicit false

namespace GuidedTours

inductive TargetingRule where
  /-- At least so many whole days have passed since registration. -/
  | elapsedDays (days : Int64)
  /-- Registered in this second or later, counted from 1970. -/
  | registeredAfter (second : Int64)
  | userSegment (name : String)
  | userId (id : String)
deriving DecidableEq

structure Targeting where
  id : String := ""
  rules : List TargetingRule := []
deriving DecidableEq

def Targeting.ofRules (rules : List TargetingRule) : Targeting := { rules }

end GuidedTours
