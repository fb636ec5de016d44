import GuidedTours.Proofs.Enrollment.Rule
import GuidedTours.Proofs.Moments

/-!
The calendar counts in order. A later date has the greater day number: the days of a month come
before the next month, and those of a year before the next year. So nanoseconds since the start of
1970 follow the order of moments, as long as neither of two moments is in a leap second.
-/

set_option autoImplicit false

namespace GuidedTours

variable {year year' : Int} {month month' : Nat}

def yearLength (year : Int) : Nat := if isLeapYear year then 366 else 365

theorem daysBeforeYear_succ (year : Int) :
    daysBeforeYear (year + 1) = daysBeforeYear year + yearLength year := by
  have hquarter : (year + 4) / 4 = (year + 3) / 4 + if year % 4 = 0 then 1 else 0 := by
    split <;> omega
  have hcentury : (year + 100) / 100 = (year + 99) / 100 + if year % 100 = 0 then 1 else 0 := by
    split <;> omega
  have hcycle : (year + 400) / 400 = (year + 399) / 400 + if year % 400 = 0 then 1 else 0 := by
    split <;> omega
  have hleap : (yearLength year : Int) = 365 + (if year % 4 = 0 then 1 else 0) -
      (if year % 100 = 0 then 1 else 0) + if year % 400 = 0 then 1 else 0 := by
    simp only [yearLength, isLeapYear, Bool.and_eq_true, Bool.or_eq_true, decide_eq_true_eq]
    split_ifs <;> omega
  simp only [daysBeforeYear]
  omega

theorem daysBeforeYear_le_add (year : Int) (n : Nat) :
    daysBeforeYear year ≤ daysBeforeYear (year + n) := by
  induction n with
  | zero => simp
  | succ n ih =>
    have hnext := daysBeforeYear_succ (year + n)
    rw [Int.natCast_succ, ← Int.add_assoc]
    omega

theorem daysBeforeYear_of_lt (h : year < year') :
    daysBeforeYear year + yearLength year ≤ daysBeforeYear year' := by
  obtain ⟨n, hn⟩ := Int.exists_add_of_le (Int.add_one_le_of_lt h)
  have hlater := daysBeforeYear_le_add (year + 1) n
  rwa [daysBeforeYear_succ, ← hn] at hlater

theorem daysBeforeMonth_succ (year : Int) {month : Nat} (h : 1 ≤ month) :
    daysBeforeMonth year (month + 1) = daysBeforeMonth year month + monthLength year month := by
  obtain ⟨m, rfl⟩ := Nat.exists_eq_add_of_le' h
  simp only [daysBeforeMonth, Nat.add_sub_cancel, List.range_succ, List.foldl_append,
    List.foldl_cons, List.foldl_nil]

theorem daysBeforeMonth_of_lt (year : Int) (h : month < month') (hmonth : 1 ≤ month) :
    daysBeforeMonth year month + monthLength year month ≤ daysBeforeMonth year month' := by
  induction month' with
  | zero => exact absurd h (Nat.not_lt_zero month)
  | succ m ih =>
    rcases Nat.lt_succ_iff_lt_or_eq.mp h with hlt | rfl
    · rw [daysBeforeMonth_succ year (Nat.le_trans hmonth (Nat.le_of_lt hlt))]
      exact Nat.le_trans (ih hlt) (Nat.le_add_right _ _)
    · exact Nat.le_of_eq (daysBeforeMonth_succ year hmonth).symm

/-- The twelve months make up the year. -/
theorem daysBeforeMonth_thirteen (year : Int) : daysBeforeMonth year 13 = yearLength year := by
  cases h : isLeapYear year <;> simp [daysBeforeMonth, yearLength, List.range_succ, monthLength, h]

theorem daysBeforeMonth_le_yearLength (year : Int) (hmonth : 1 ≤ month ∧ month ≤ 12) :
    daysBeforeMonth year month + monthLength year month ≤ yearLength year := by
  rw [← daysBeforeMonth_thirteen]
  exact daysBeforeMonth_of_lt year (by omega) hmonth.1

namespace Date

variable {d d' : Date}

def number (d : Date) : Int := dayNumber d.year d.month d.day

/-- The order of dates by their fields. -/
def Before (d d' : Date) : Prop :=
  d.year < d'.year ∨ d.year = d'.year ∧
    (d.month < d'.month ∨ d.month = d'.month ∧ d.day < d'.day)

theorem Before.number_lt (h : d.Before d') : d.number < d'.number := by
  have hmonth := daysBeforeMonth_le_yearLength d.year d.month_mem
  have hday := d.day_mem
  have hday' := d'.day_mem
  simp only [number, dayNumber]
  rcases h with hyear | ⟨hyear, hmonth | ⟨hmonth, hday⟩⟩
  · have hdays := daysBeforeYear_of_lt hyear
    omega
  · have hdays := daysBeforeMonth_of_lt d.year hmonth d.month_mem.1
    rw [← hyear]
    omega
  · rw [← hyear, ← hmonth]
    omega

end Date

namespace Moment

variable {m m' : Moment}

/-- Nanoseconds since the day began; those of a leap second go on after the second before it. -/
def nanosecondOfDay (m : Moment) : Nat :=
  (m.hour * 3600 + m.minute * 60 + m.second) * nanosecondsPerSecond + m.nanosecond

theorem second_lt_sixty (hm : m.isLeapSecond = false) : m.second < 60 := by
  have hsecond := m.second_lt
  have hleap : m.second ≠ 60 := by simpa [isLeapSecond] using hm
  omega

theorem nanosecondOfDay_lt (hm : m.isLeapSecond = false) :
    m.nanosecondOfDay < 86400 * nanosecondsPerSecond := by
  have hhour := m.hour_lt
  have hminute := m.minute_lt
  have hsecond := second_lt_sixty hm
  have hnanosecond := m.nanosecond_lt
  simp only [nanosecondOfDay, nanosecondsPerSecond] at hnanosecond ⊢
  omega

/-- The order by ranks is that of the dates, and within a date that of the clock. -/
theorem before_or_of_lt (hm : m.isLeapSecond = false) (h : m < m') :
    m.date.Before m'.date ∨
      m.date.number = m'.date.number ∧ m.nanosecondOfDay < m'.nanosecondOfDay := by
  obtain ⟨⟨year, month, day, _, hmonth, hday⟩, hour, minute, second, nanosecond, hhour, hminute,
    hsecond, hnanosecond⟩ := m
  obtain ⟨⟨year', month', day', _, hmonth', hday'⟩, hour', minute', second', nanosecond', hhour',
    hminute', hsecond', hnanosecond'⟩ := m'
  have hsixty : second < 60 := second_lt_sixty hm
  have hlength := monthLength_le year month
  have hlength' := monthLength_le year' month'
  change rank _ < rank _ at h
  simp only [rank, nanosecondsPerSecond] at h hnanosecond hnanosecond'
  by_cases hdate : year = year' ∧ month = month' ∧ day = day'
  · obtain ⟨rfl, rfl, rfl⟩ := hdate
    refine .inr ⟨rfl, ?_⟩
    simp only [nanosecondOfDay, nanosecondsPerSecond]
    have hclock : hour < hour' ∨ hour = hour' ∧ (minute < minute' ∨ minute = minute' ∧
        (second < second' ∨ second = second' ∧ nanosecond < nanosecond')) := by omega
    omega
  · refine .inl ?_
    simp only [Date.Before]
    omega

theorem unixNanosecond_eq (hm : m.isLeapSecond = false) :
    m.unixNanosecond = m.date.number * (86400 * nanosecondsPerSecond) + m.nanosecondOfDay := by
  have hmin : min m.second 59 = m.second := Nat.min_eq_left (Nat.le_of_lt_succ (second_lt_sixty hm))
  simp only [unixNanosecond, unixSecond, secondOfDay, nanosecondOfDay, Date.number, hmin]
  push_cast
  ring

/-- Outside leap seconds a later moment is later by the count of nanoseconds. -/
theorem unixNanosecond_lt (hm : m.isLeapSecond = false) (hm' : m'.isLeapSecond = false)
    (h : m < m') : m.unixNanosecond < m'.unixNanosecond := by
  have hclock := nanosecondOfDay_lt hm
  rw [unixNanosecond_eq hm, unixNanosecond_eq hm']
  rcases before_or_of_lt hm h with hdate | ⟨hdate, hlater⟩
  · have hnumber := hdate.number_lt
    simp only [nanosecondsPerSecond] at hclock ⊢
    omega
  · rw [hdate]
    omega

end Moment

end GuidedTours
