import GuidedTours.Json.Basic
import GuidedTours.Text.Digits

/-!
Numbers in JSON text. A number without fraction and exponent that fits in 64 bits, with or without
sign, is a whole number; every other one is a double, minus zero included. Of a number with many
digits those count that fit in 64 bits: the rest of the whole part only shifts the point and the
rest of the fraction is dropped.
-/

set_option autoImplicit false

namespace GuidedTours.Json

open Text Decimal

/-- Extends a significand by digits while it fits in 64 bits, and returns the digits left over. -/
def absorb : Nat → List Nat → Nat × List Nat
  | n, [] => (n, [])
  | n, d :: ds => if 10 * n + d < UInt64.size then absorb (10 * n + d) ds else (n, d :: ds)

def ofDouble (negative : Bool) (significand : Nat) (power : Int) : Json :=
  match Magnitude.ofDecimal significand power with
  | some x => .double ⟨negative, x⟩
  | none => .unreadable

def ofWhole (negative : Bool) (digits : List Nat) : Json :=
  match absorb 0 digits with
  | (n, []) =>
    if negative then if n = 0 ∨ Int64.maxValue.toInt + 1 < n then ofDouble true n 0 else .int (-n)
    else .int n
  | (n, rest) => ofDouble negative n rest.length

def ofParts (negative : Bool) (whole fraction : List Nat) (power : Int) : Json :=
  let (n, shift) := absorb 0 whole
  let (n, dropped) := absorb n fraction
  ofDouble negative n (shift.length - (fraction.length - dropped.length : Nat) + power)

/-- An exponent, or the end of the number, after which nothing may follow. -/
def exponent? : List Char → Option (Option Int)
  | [] => some none
  | c :: rest =>
    if c = 'e' ∨ c = 'E' then
      let (negative, rest) := match rest with
        | '-' :: rest => (true, rest)
        | '+' :: rest => (false, rest)
        | rest => (false, rest)
      match spanDigits rest with
      | (d :: ds, []) =>
        let n : Int := ofDigits 10 (d :: ds)
        some (some (if negative then -n else n))
      | _ => none
    else none

/-- Reads the whole text of a number; the whole part has no leading zero. -/
def number? (cs : List Char) : Option Json :=
  let (negative, cs) := match cs with
    | '-' :: rest => (true, rest)
    | cs => (false, cs)
  match spanDigits cs with
  | ([], _) => none
  | (0 :: _ :: _, _) => none
  | (whole, []) => some (ofWhole negative whole)
  | (whole, '.' :: rest) =>
    match spanDigits rest with
    | ([], _) => none
    | (fraction, rest) =>
      (exponent? rest).map fun power ↦ ofParts negative whole fraction (power.getD 0)
  | (whole, rest) =>
    (exponent? rest).map fun power ↦ ofParts negative whole [] (power.getD 0)

end GuidedTours.Json
