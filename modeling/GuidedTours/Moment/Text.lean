import GuidedTours.Moment
import GuidedTours.Text.Blank
import GuidedTours.Text.Digits

/-!
Moments as texts in the manner of RFC 3339. Reading is lenient: numbers may lack leading zeros,
blanks may stand around them, a space may stand for the `T`, and after the time comes `Z`, `UTC` or
an offset of hours and minutes with or without a colon. A year of more than four digits or a
negative one needs a sign. Writing always ends in `Z` and gives the fraction in groups of three
digits, as many as it takes.
-/

set_option autoImplicit false

namespace GuidedTours.Moment

open Text

/-- Reads a part of a text and leaves the rest. -/
abbrev Scan (α : Type) := List Char → Option (α × List Char)

def skipBlanks (cs : List Char) : List Char := cs.dropWhile isBlank

/-- The number at the start of a text, of at least one and at most `most` digits. -/
def scanNumber (most : Nat) (cs : List Char) : Option (Nat × List Char) :=
  match (spanDigits (cs.take most)).1 with
  | [] => none
  | ds => some (ofDigits 10 ds, cs.drop ds.length)

/-- A number after optional blanks. -/
def scanField (most : Nat) : Scan Nat := fun cs ↦ scanNumber most (skipBlanks cs)

def scanYear : Scan Int := fun cs ↦
  match skipBlanks cs with
  | '-' :: rest => (scanNumber rest.length rest).map fun (n, rest) ↦ (-n, rest)
  | '+' :: rest => (scanNumber rest.length rest).map fun (n, rest) ↦ (n, rest)
  | cs => (scanNumber 4 cs).map fun (n, rest) ↦ (n, rest)

/-- A character after optional blanks. -/
def scanMark (c : Char) (cs : List Char) : Option (List Char) :=
  match skipBlanks cs with
  | d :: rest => if c = d then some rest else none
  | [] => none

/-- The nanoseconds of a fraction of at least one digit; those beyond the ninth are dropped. -/
def scanFraction : Scan Nat
  | '.' :: rest =>
    match spanDigits rest with
    | ([], _) => none
    | (ds, rest) => some (ofDigits 10 ((ds ++ List.replicate 9 0).take 9), rest)
  | cs => some (0, cs)

/-- Minutes east of universal time. -/
def scanOffset : Scan Int := fun cs ↦
  match cs with
  | 'Z' :: rest | 'z' :: rest => some (0, rest)
  | sign :: h :: h' :: rest =>
    if (sign :: h :: [h']).map Char.toLower = ['u', 't', 'c'] then some (0, rest)
    else do
      let negative ←
        if sign = '+' then some false
        else if sign = '-' ∨ sign = '\u2212' then some true else none
      let hours := 10 * (← digit? h) + (← digit? h')
      match rest.dropWhile fun c ↦ c = ':' || isBlank c with
      | m :: m' :: rest =>
        let minutes := 10 * (← digit? m) + (← digit? m')
        guard (minutes < 60 ∧ hours < 24)
        let offset : Int := hours * 60 + minutes
        return (if negative then -offset else offset, rest)
      | _ => none
  | _ => none

/-- The moment whose local time at an offset has the given fields. -/
def ofLocal? (date : Date) (hour minute second nanosecond : Nat) (offset : Int) :
    Option Moment := do
  guard (hour < 24 ∧ minute < 60)
  let minutes : Int := hour * 60 + minute - offset
  let date ← if minutes < 0 then date.previous? else if 1440 ≤ minutes then date.next? else date
  let minutes := (minutes % 1440).toNat
  if h : (minutes / 60 < 24 ∧ minutes % 60 < 60) ∧ second < 61 ∧
      nanosecond < nanosecondsPerSecond then
    some ⟨date, minutes / 60, minutes % 60, second, nanosecond, h.1.1, h.1.2, h.2.1, h.2.2⟩
  else none

def parse? (s : String) : Option Moment := do
  let (year, cs) ← scanYear s.toList
  let (month, cs) ← scanField 2 (← scanMark '-' cs)
  let (day, cs) ← scanField 2 (← scanMark '-' cs)
  let date ← Date.of? year month day
  let cs ← match cs with
    | 'T' :: rest | 't' :: rest | ' ' :: rest => some rest
    | _ => none
  let (hour, cs) ← scanField 2 cs
  let (minute, cs) ← scanField 2 (← scanMark ':' cs)
  let (second, cs) ← scanField 2 (← scanMark ':' cs)
  let (nanosecond, cs) ← scanFraction cs
  let (offset, cs) ← scanOffset (skipBlanks cs)
  guard (cs.all isBlank)
  ofLocal? date hour minute second nanosecond offset

def yearText (year : Int) : List Char :=
  if 0 ≤ year ∧ year ≤ 9999 then padded 4 year.toNat
  else (if year < 0 then '-' else '+') :: padded 4 year.natAbs

def fractionText (nanosecond : Nat) : List Char :=
  if nanosecond = 0 then []
  else if nanosecond % 1000000 = 0 then '.' :: padded 3 (nanosecond / 1000000)
  else if nanosecond % 1000 = 0 then '.' :: padded 6 (nanosecond / 1000)
  else '.' :: padded 9 nanosecond

def text (m : Moment) : String :=
  String.ofList (yearText m.date.year ++ '-' :: padded 2 m.date.month ++
    '-' :: padded 2 m.date.day ++ 'T' :: padded 2 m.hour ++ ':' :: padded 2 m.minute ++
    ':' :: padded 2 m.second ++ fractionText m.nanosecond ++ ['Z'])

end GuidedTours.Moment
