/-!
Moments of universal time: a date of the proleptic Gregorian calendar and a time of day down to
the nanosecond. Second 60 is a leap second, which any minute may have. Moments are ordered by their
fields, from the year down, which is the order in which they happen.
-/

set_option autoImplicit false

namespace GuidedTours

def isLeapYear (year : Int) : Bool :=
  year % 4 = 0 && (year % 100 ≠ 0 || year % 400 = 0)

def monthLength (year : Int) (month : Nat) : Nat :=
  match month with
  | 2 => if isLeapYear year then 29 else 28
  | 4 | 6 | 9 | 11 => 30
  | _ => 31

def firstYear : Int := -262143

def lastYear : Int := 262142

structure Date where
  year : Int
  month : Nat
  day : Nat
  year_mem : firstYear ≤ year ∧ year ≤ lastYear
  month_mem : 1 ≤ month ∧ month ≤ 12
  day_mem : 1 ≤ day ∧ day ≤ monthLength year month
deriving DecidableEq

namespace Date

def of? (year : Int) (month day : Nat) : Option Date :=
  if h : (firstYear ≤ year ∧ year ≤ lastYear) ∧ (1 ≤ month ∧ month ≤ 12) ∧
      (1 ≤ day ∧ day ≤ monthLength year month) then
    some ⟨year, month, day, h.1, h.2.1, h.2.2⟩
  else none

def next? (d : Date) : Option Date :=
  (of? d.year d.month (d.day + 1)).or
    ((of? d.year (d.month + 1) 1).or (of? (d.year + 1) 1 1))

def previous? (d : Date) : Option Date :=
  (of? d.year d.month (d.day - 1)).or
    ((of? d.year (d.month - 1) (monthLength d.year (d.month - 1))).or (of? (d.year - 1) 12 31))

end Date

/-- The days from the first of January of the year 0 to that of the given year. -/
def daysBeforeYear (year : Int) : Int :=
  365 * year + (year + 3) / 4 - (year + 99) / 100 + (year + 399) / 400

def daysBeforeMonth (year : Int) (month : Nat) : Nat :=
  (List.range (month - 1)).foldl (fun days m ↦ days + monthLength year (m + 1)) 0

/-- The days from the first of January of the year 1970. -/
def dayNumber (year : Int) (month day : Nat) : Int :=
  daysBeforeYear year + daysBeforeMonth year month + day - 1 - daysBeforeYear 1970

def nanosecondsPerSecond : Nat := 1000000000

structure Moment where
  date : Date
  hour : Nat
  minute : Nat
  second : Nat
  nanosecond : Nat
  hour_lt : hour < 24
  minute_lt : minute < 60
  second_lt : second < 61
  nanosecond_lt : nanosecond < nanosecondsPerSecond
deriving DecidableEq

namespace Moment

/-- The fields in mixed radix: the earlier of two moments has the smaller number. -/
def rank (m : Moment) : Int :=
  (((((m.date.year * 13 + m.date.month) * 32 + m.date.day) * 24 + m.hour) * 60 + m.minute) * 61 +
    m.second) * nanosecondsPerSecond + m.nanosecond

instance : LT Moment := ⟨fun a b ↦ a.rank < b.rank⟩

instance : DecidableLT Moment := fun a b ↦ inferInstanceAs (Decidable (a.rank < b.rank))

def isLeapSecond (m : Moment) : Bool := m.second = 60

/-- The seconds of the day that have begun; a leap second counts as the one before it. -/
def secondOfDay (m : Moment) : Nat :=
  m.hour * 3600 + m.minute * 60 + min m.second 59

/-- Seconds since the start of 1970. -/
def unixSecond (m : Moment) : Int :=
  dayNumber m.date.year m.date.month m.date.day * 86400 + m.secondOfDay

/-- The first and the last second that a date of the calendar has. -/
def firstSecond : Int := dayNumber firstYear 1 1 * 86400

def lastSecond : Int := dayNumber lastYear 12 31 * 86400 + 86399

/-- Nanoseconds from a second since 1970. Within a leap second the second before it has passed as
well, unless the start comes later in its own day than that second. -/
def nanosecondsSince (m : Moment) (start : Int) : Int :=
  let leap : Int := if m.isLeapSecond ∧ start % 86400 ≤ m.secondOfDay then 1 else 0
  (m.unixSecond + leap - start) * nanosecondsPerSecond + m.nanosecond

/-- Whole days from a second since 1970, toward zero; unknown if no date has that second. -/
def wholeDaysSince? (m : Moment) (start : Int) : Option Int :=
  if firstSecond ≤ start ∧ start ≤ lastSecond then
    some ((m.nanosecondsSince start).tdiv (86400 * nanosecondsPerSecond))
  else none

end Moment

end GuidedTours
