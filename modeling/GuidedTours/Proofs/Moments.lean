import GuidedTours.Moment.Text
import GuidedTours.Proofs.Attempts
import GuidedTours.Proofs.FlowIds
import Mathlib.Data.Nat.Digits.Defs

/-!
Moments, their ranks and their texts. The rank tells moments apart. Every part of the text of a
moment is a number that is filled up with zeros, and what follows it does not begin with a digit, so
reading takes the parts off one by one and finds the fields of the moment.
-/

set_option autoImplicit false

namespace GuidedTours

open Text

theorem monthLength_le (year : Int) (month : Nat) : monthLength year month ≤ 31 := by
  unfold monthLength
  split
  next => split <;> decide
  all_goals decide

/-- Every field of a moment is a digit below its radix, so the rank tells moments apart. -/
theorem Moment.rank_injective : Function.Injective Moment.rank := by
  rintro ⟨⟨year, month, day, _, hmonth, hday⟩, hour, minute, second, nanosecond, hhour, hminute,
    hsecond, hnanosecond⟩ ⟨⟨year', month', day', _, hmonth', hday'⟩, hour', minute', second',
    nanosecond', hhour', hminute', hsecond', hnanosecond'⟩ h
  have hlength := monthLength_le year month
  have hlength' := monthLength_le year' month'
  simp only [rank, nanosecondsPerSecond] at h hnanosecond hnanosecond'
  obtain rfl : nanosecond = nanosecond' := by omega
  obtain rfl : second = second' := by omega
  obtain rfl : minute = minute' := by omega
  obtain rfl : hour = hour' := by omega
  obtain rfl : day = day' := by omega
  obtain ⟨rfl, rfl⟩ : month = month' ∧ year = year' := by omega
  rfl

namespace Text

variable {width n : Nat} {digits : List Nat} {rest : List Char}

theorem digit?_digitChar (h : n < 10) : digit? (digitChar n) = some n := by
  have all : ∀ k : Fin 10, digit? (digitChar k) = some k.val := by decide
  exact all ⟨n, h⟩

theorem isBlank_digitChar (h : n < 10) : ¬ isBlank (digitChar n) := by
  have all : ∀ k : Fin 10, ¬ isBlank (digitChar k) := by decide
  exact all ⟨n, h⟩

theorem ofDigits_append_zeros (digits : List Nat) (count : Nat) :
    ofDigits 10 (digits ++ List.replicate count 0) = ofDigits 10 digits * 10 ^ count := by
  induction count with
  | zero => rw [List.replicate_zero, List.append_nil, Nat.pow_zero, Nat.mul_one]
  | succ count ih =>
    rw [List.replicate_succ', ← List.append_assoc, ofDigits_append, ih, Nat.pow_succ,
      Nat.add_zero, Nat.mul_comm 10, Nat.mul_assoc]

/-- The text begins with something that is not a digit. -/
def NoDigit (cs : List Char) : Prop := ∀ c ∈ cs.head?, digit? c = none

theorem noDigit_cons {c : Char} (h : digit? c = none) (cs : List Char) : NoDigit (c :: cs) := by
  intro d hd
  rw [← Option.some.inj hd, h]

theorem spanDigits_digits (hdigits : ∀ d ∈ digits, d < 10) (hrest : NoDigit rest) :
    spanDigits (digits.map digitChar ++ rest) = (digits, rest) := by
  induction digits with
  | nil =>
    cases rest with
    | nil => rfl
    | cons c cs => simp [spanDigits, hrest c rfl]
  | cons d ds ih =>
    simp [spanDigits, digit?_digitChar (hdigits d List.mem_cons_self),
      ih fun d' hd' ↦ hdigits d' (List.mem_cons_of_mem d hd')]

/-- The digits of a number that is filled up with zeros. -/
def paddedDigits (width n : Nat) : List Nat :=
  toDigits 10 (max width (Nat.toDigits 10 n).length) n

theorem padded_eq (width n : Nat) : padded width n = (paddedDigits width n).map digitChar := rfl

theorem paddedDigits_lt : ∀ d ∈ paddedDigits width n, d < 10 := toDigits_lt (by decide) _ _

theorem length_paddedDigits (width n : Nat) :
    (paddedDigits width n).length = max width (Nat.toDigits 10 n).length :=
  length_toDigits 10 _ n

theorem length_paddedDigits_of_lt (hwidth : 0 < width) (h : n < 10 ^ width) :
    (paddedDigits width n).length = width := by
  rw [length_paddedDigits, max_eq_left]
  exact (Nat.length_toDigits_le_iff (by decide) hwidth).mpr h

theorem paddedDigits_ne_nil (width n : Nat) : paddedDigits width n ≠ [] := by
  intro h
  have hlength := length_paddedDigits width n
  have hpos : 0 < (Nat.toDigits 10 n).length := Nat.length_toDigits_pos
  rw [h, List.length_nil] at hlength
  omega

theorem ofDigits_paddedDigits (width n : Nat) : ofDigits 10 (paddedDigits width n) = n := by
  have hpos : 0 < max width (Nat.toDigits 10 n).length :=
    Nat.lt_of_lt_of_le Nat.length_toDigits_pos (Nat.le_max_right _ _)
  have hfits : n < 10 ^ max width (Nat.toDigits 10 n).length :=
    (Nat.length_toDigits_le_iff (by decide) hpos).mp (Nat.le_max_right _ _)
  rw [paddedDigits, ofDigits_toDigits]
  exact Nat.mod_eq_of_lt hfits

/-- A number that is filled up with zeros begins with a digit. -/
theorem exists_padded_eq (width n : Nat) :
    ∃ d ds, d < 10 ∧ padded width n = digitChar d :: ds := by
  obtain ⟨d, ds, hdigits⟩ := List.exists_cons_of_ne_nil (paddedDigits_ne_nil width n)
  refine ⟨d, ds.map digitChar, paddedDigits_lt d (hdigits ▸ List.mem_cons_self), ?_⟩
  rw [padded_eq, hdigits, List.map_cons]

end Text

namespace Moment

variable {most width n : Nat} {rest : List Char}

theorem scanNumber_padded (hmost : (padded width n).length ≤ most) (hrest : NoDigit rest) :
    scanNumber most (padded width n ++ rest) = some (n, rest) := by
  have htaken : NoDigit (rest.take (most - (padded width n).length)) := by
    intro c hc
    rw [List.head?_take] at hc
    split at hc
    next => nomatch hc
    next => exact hrest c hc
  have hspan : (spanDigits ((padded width n ++ rest).take most)).1 = paddedDigits width n := by
    rw [List.take_append, List.take_of_length_le hmost]
    exact congrArg Prod.fst (spanDigits_digits paddedDigits_lt htaken)
  obtain ⟨d, ds, hdigits⟩ := List.exists_cons_of_ne_nil (paddedDigits_ne_nil width n)
  have hvalue : ofDigits 10 (d :: ds) = n := hdigits ▸ ofDigits_paddedDigits width n
  have hlength : (d :: ds).length = (padded width n).length := by
    rw [padded_eq, List.length_map, hdigits]
  rw [scanNumber, hspan, hdigits]
  simp only [hvalue, hlength, List.drop_left]

theorem skipBlanks_padded (width n : Nat) (rest : List Char) :
    skipBlanks (padded width n ++ rest) = padded width n ++ rest := by
  obtain ⟨d, ds, hd, hpadded⟩ := exists_padded_eq width n
  rw [hpadded, skipBlanks, List.cons_append, List.dropWhile_cons_of_neg (isBlank_digitChar hd)]

theorem length_padded_le (hwidth : 0 < width) (h : n < 10 ^ width) :
    (padded width n).length ≤ width := by
  rw [padded_eq, List.length_map, length_paddedDigits_of_lt hwidth h]

theorem scanField_padded (h : n < 100) (hrest : NoDigit rest) :
    scanField 2 (padded 2 n ++ rest) = some (n, rest) := by
  rw [scanField, skipBlanks_padded, scanNumber_padded (length_padded_le (by decide) h) hrest]

theorem padded_append_ne_cons {c : Char} {cs : List Char} (h : digit? c = none) :
    padded width n ++ rest ≠ c :: cs := by
  intro hcons
  obtain ⟨d, ds, hd, hpadded⟩ := exists_padded_eq width n
  rw [hpadded] at hcons
  have hdigit := digit?_digitChar hd
  rw [(List.cons.inj hcons).1, h] at hdigit
  nomatch hdigit

theorem scanYear_yearText (year : Int) (hrest : NoDigit rest) :
    scanYear (yearText year ++ rest) = some (year, rest) := by
  unfold yearText
  by_cases hshort : 0 ≤ year ∧ year ≤ 9999
  · have hnumber : scanNumber 4 (padded 4 year.toNat ++ rest) = some (year.toNat, rest) :=
      scanNumber_padded (length_padded_le (by decide) (by omega)) hrest
    rw [if_pos hshort, scanYear, skipBlanks_padded]
    split
    next hsign => exact absurd hsign (padded_append_ne_cons rfl)
    next hsign => exact absurd hsign (padded_append_ne_cons rfl)
    next =>
      rw [hnumber]
      exact congrArg (fun y ↦ some (y, rest)) (Int.toNat_of_nonneg hshort.1)
  · have hlong : (padded 4 year.natAbs).length ≤ (padded 4 year.natAbs ++ rest).length := by
      rw [List.length_append]
      exact Nat.le_add_right _ _
    have hnumber := scanNumber_padded hlong hrest
    rw [if_neg hshort]
    by_cases hnegative : year < 0
    · have habs : -(year.natAbs : Int) = year := by omega
      rw [if_pos hnegative]
      exact (congrArg (Option.map _) hnumber).trans (congrArg (fun y ↦ some (y, rest)) habs)
    · have habs : (year.natAbs : Int) = year := by omega
      rw [if_neg hnegative]
      exact (congrArg (Option.map _) hnumber).trans (congrArg (fun y ↦ some (y, rest)) habs)

theorem scanFraction_padded (hwidth : 0 < width) (hmost : width ≤ 9) (h : n < 10 ^ width)
    (hrest : NoDigit rest) :
    scanFraction ('.' :: (padded width n ++ rest)) = some (n * 10 ^ (9 - width), rest) := by
  have hlength := length_paddedDigits_of_lt hwidth h
  have hvalue : ofDigits 10 ((paddedDigits width n ++ List.replicate 9 0).take 9) =
      n * 10 ^ (9 - width) := by
    rw [List.take_append, List.take_of_length_le (hlength.trans_le hmost), hlength,
      List.take_replicate, Nat.min_eq_left (Nat.sub_le 9 width), ofDigits_append_zeros,
      ofDigits_paddedDigits]
  obtain ⟨d, ds, hdigits⟩ := List.exists_cons_of_ne_nil (paddedDigits_ne_nil width n)
  rw [hdigits] at hvalue
  rw [scanFraction, padded_eq, spanDigits_digits paddedDigits_lt hrest, hdigits]
  simp only [hvalue]

theorem scanFraction_fractionText (h : n < nanosecondsPerSecond) :
    scanFraction (fractionText n ++ ['Z']) = some (n, ['Z']) := by
  have hrest : NoDigit ['Z'] := fun c hc ↦ by
    obtain rfl := Option.some.inj hc
    rfl
  have hsplit {k : Nat} (hk : n % k = 0) : n / k * k = n :=
    Nat.div_mul_cancel (Nat.dvd_of_mod_eq_zero hk)
  have hless : n < 1000000000 := h
  unfold fractionText
  split
  next hzero => rw [hzero]; rfl
  next =>
    split
    next hmilli =>
      rw [List.cons_append, scanFraction_padded (by decide) (by decide) (by omega) hrest]
      exact congrArg (fun k ↦ some (k, ['Z'])) (hsplit hmilli)
    next =>
      split
      next hmicro =>
        rw [List.cons_append, scanFraction_padded (by decide) (by decide) (by omega) hrest]
        exact congrArg (fun k ↦ some (k, ['Z'])) (hsplit hmicro)
      next =>
        rw [List.cons_append, scanFraction_padded (by decide) (by decide) hless hrest,
          Nat.sub_self, Nat.pow_zero, Nat.mul_one]

theorem ofLocal?_self (m : Moment) :
    ofLocal? m.date m.hour m.minute m.second m.nanosecond 0 = some m := by
  have hhour := m.hour_lt
  have hminute := m.minute_lt
  have hminutes : ((m.hour : Int) * 60 + m.minute - 0) % 1440 = (m.hour * 60 + m.minute : Nat) := by
    omega
  have hafter : ¬ (m.hour : Int) * 60 + m.minute - 0 < 0 := by omega
  have hbefore : ¬ 1440 ≤ (m.hour : Int) * 60 + m.minute - 0 := by omega
  have hhours : (m.hour * 60 + m.minute) / 60 = m.hour := by omega
  have hrest : (m.hour * 60 + m.minute) % 60 = m.minute := by omega
  simp only [ofLocal?, hhour, hminute, and_self, guard_true, if_neg hafter, if_neg hbefore,
    hminutes, Int.toNat_natCast, hhours, hrest, m.second_lt, m.nanosecond_lt, dite_true]
  rfl

theorem noDigit_fractionText (n : Nat) : NoDigit (fractionText n ++ ['Z']) := by
  unfold fractionText
  split
  next => exact noDigit_cons rfl _
  next =>
    split
    next => exact noDigit_cons rfl _
    next => split <;> exact noDigit_cons rfl _

/-- The text of a moment parses back to the moment. -/
theorem parse?_text (m : Moment) : parse? m.text = some m := by
  have hdate : Date.of? m.date.year m.date.month m.date.day = some m.date :=
    dif_pos ⟨m.date.year_mem, m.date.month_mem, m.date.day_mem⟩
  have hmonth : m.date.month < 100 := by have := m.date.month_mem.2; omega
  have hday : m.date.day < 100 := by
    have := m.date.day_mem.2.trans (monthLength_le m.date.year m.date.month)
    omega
  have hhour : m.hour < 100 := by have := m.hour_lt; omega
  have hminute : m.minute < 100 := by have := m.minute_lt; omega
  have hsecond : m.second < 100 := by have := m.second_lt; omega
  have hmark {c : Char} {cs : List Char} (h : ¬ isBlank c) : scanMark c (c :: cs) = some cs := by
    rw [scanMark, skipBlanks, List.dropWhile_cons_of_neg h]
    exact if_pos rfl
  have hhyphen (cs : List Char) : NoDigit ('-' :: cs) := noDigit_cons rfl cs
  have hcolon (cs : List Char) : NoDigit (':' :: cs) := noDigit_cons rfl cs
  have hT (cs : List Char) : NoDigit ('T' :: cs) := noDigit_cons rfl cs
  rw [parse?, text, String.toList_ofList]
  simp only [List.append_assoc, List.cons_append]
  refine bind_of_eq_some (scanYear_yearText m.date.year (hhyphen _)) ?_
  refine bind_of_eq_some (hmark (by decide)) ?_
  refine bind_of_eq_some (scanField_padded hmonth (hhyphen _)) ?_
  refine bind_of_eq_some (hmark (by decide)) ?_
  refine bind_of_eq_some (scanField_padded hday (hT _)) ?_
  refine bind_of_eq_some hdate ?_
  refine bind_of_eq_some rfl ?_
  refine bind_of_eq_some (scanField_padded hhour (hcolon _)) ?_
  refine bind_of_eq_some (hmark (by decide)) ?_
  refine bind_of_eq_some (scanField_padded hminute (hcolon _)) ?_
  refine bind_of_eq_some (hmark (by decide)) ?_
  refine bind_of_eq_some
    (scanField_padded hsecond (noDigit_fractionText m.nanosecond)) ?_
  refine bind_of_eq_some (scanFraction_fractionText m.nanosecond_lt) ?_
  have hoffset : scanOffset (skipBlanks ['Z']) = some (0, []) := rfl
  refine bind_of_eq_some hoffset ?_
  exact ofLocal?_self m

end Moment

end GuidedTours
