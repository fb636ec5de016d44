import GuidedTours.FlowId
import GuidedTours.StepTree.Edit
import GuidedTours.TrackedEvent

/-!
How users fare with a flow, from the events about it in the order of their recording. The time of a
step is the mean over the users who started and finished it; of each user the first start and the
first finish count. Times are in the unit of the clients' clocks and means are cut toward zero.
Differences and sums of times are machine words like the times themselves and wrap around, so the
order in which times are added does not matter.
-/

set_option autoImplicit false

namespace GuidedTours

structure FlowAnalytics where
  flow : FlowId
  /-- How many users have an event. -/
  views : UInt64
  averageStepTime : Dictionary Int64
  averageTotalTime : Int64
  finished : UInt64
  skipped : UInt64

/-- The first start and the first finish of a step by a user. -/
structure StepVisit where
  step : String
  user : String
  start : Option Int64
  finish : Option Int64
deriving DecidableEq

namespace StepVisit

def isOf (step user : String) (v : StepVisit) : Bool :=
  v.step = step && v.user = user

/-- Notes a start or a finish in the visits so far. -/
def note (step user : String) (change : StepVisit → StepVisit) (visits : List StepVisit) :
    List StepVisit :=
  if visits.any (isOf step user) then modifyFirst (isOf step user) change visits
  else visits ++ [change ⟨step, user, none, none⟩]

/-- Takes an event into account. Events that are not about a step change nothing. -/
def record (visits : List StepVisit) (e : TrackedEvent) : List StepVisit :=
  match e.kind, e.step? with
  | .flowStepStart, some step =>
    note step e.user (fun v ↦ { v with start := v.start.or (some e.timestamp) }) visits
  | .flowStepFinish, some step =>
    note step e.user (fun v ↦ { v with finish := v.finish.or (some e.timestamp) }) visits
  | _, _ => visits

def ofEvents (events : List TrackedEvent) : List StepVisit :=
  events.foldl record []

/-- The time from start to finish, of a visit that has both. -/
def duration? (v : StepVisit) : Option Int64 :=
  v.finish.bind fun finish ↦ v.start.map fun start ↦ finish - start

end StepVisit

namespace FlowAnalytics

def total (durations : List Int64) : Int64 := durations.foldl (· + ·) 0

/-- The total divided by the number of durations. The quotient is no further from zero than the
total, so it does not wrap. -/
def mean? (durations : List Int64) : Option Int64 :=
  if durations = [] then none
  else some (Int64.ofInt ((total durations).toInt.tdiv durations.length))

/-- The mean time of each step that some user has started and finished. -/
def stepTimes (visits : List StepVisit) : List (String × Int64) :=
  (visits.map StepVisit.step).eraseDups.filterMap fun step ↦
    (mean? ((visits.filter (·.step = step)).filterMap StepVisit.duration?)).map (step, ·)

def countOf (kind : EventKind) (events : List TrackedEvent) : UInt64 :=
  UInt64.ofNat (events.countP (·.kind = kind))

def ofEvents (flow : FlowId) (events : List TrackedEvent) : FlowAnalytics :=
  let averageStepTime := Dictionary.ofList (stepTimes (StepVisit.ofEvents events))
  { flow
    views := UInt64.ofNat (events.map TrackedEvent.user).eraseDups.length
    averageStepTime
    averageTotalTime := total (averageStepTime.entries.map Prod.snd)
    finished := countOf .flowFinished events
    skipped := countOf .flowSkipped events }

end FlowAnalytics

end GuidedTours
