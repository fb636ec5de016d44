/-!
Finite double-precision numbers and their exact rounding. A magnitude is held as its rank among
the finite magnitudes: rank zero is zero, then come the subnormal ones, then each power of two
with its `2 ^ 52` fractions. A number between two of them rounds to the nearer, a tie to the one
of even rank.
-/

set_option autoImplicit false

namespace GuidedTours.Decimal

/-- Two to the power of 52. -/
abbrev fractionCount : Nat := 4503599627370496

/-- The finite magnitudes in ascending order. -/
abbrev Magnitude := Fin (2047 * fractionCount)

namespace Magnitude

def zero : Magnitude := ⟨0, by decide⟩

/-- The whole number `m` for which the magnitude is `m * 2 ^ exponent`. -/
def significand (x : Magnitude) : Nat :=
  if x.val < fractionCount then x.val else fractionCount + x.val % fractionCount

def exponent (x : Magnitude) : Int :=
  if x.val < fractionCount then -1074 else (x.val / fractionCount : Nat) - 1075

end Magnitude

/-- The quotient `numerator / denominator / base ^ power` as a quotient of natural numbers. -/
def scaled (base : Nat) (numerator denominator : Nat) (power : Int) : Nat × Nat :=
  if 0 ≤ power then (numerator, denominator * Nat.pow base power.toNat)
  else (numerator * Nat.pow base (-power).toNat, denominator)

/-- The whole number nearest to a quotient; a tie goes to the even one. -/
def roundEven (numerator denominator : Nat) : Nat :=
  let quotient := numerator / denominator
  let twice := 2 * (numerator % denominator)
  if twice < denominator ∨ (twice = denominator ∧ quotient % 2 = 0) then quotient
  else quotient + 1

/-- The greatest `e` with `2 ^ e ≤ numerator / denominator`, for positive operands. -/
def binaryExponent (numerator denominator : Nat) : Int :=
  let e : Int := (numerator.log2 : Int) - (denominator.log2 : Int)
  let q := scaled 2 numerator denominator e
  if q.1 < q.2 then e - 1 else e

namespace Magnitude

/-- The magnitude nearest to a quotient, unless it lies beyond the greatest one. -/
def ofRatio (numerator denominator : Nat) : Option Magnitude :=
  if numerator = 0 then some zero
  else
    let e := max (-1074) (binaryExponent numerator denominator - 52)
    let q := scaled 2 numerator denominator e
    let rank := (e + 1074).toNat * fractionCount + roundEven q.1 q.2
    if h : rank < 2047 * fractionCount then some ⟨rank, h⟩ else none

/-- The exact value as a quotient. -/
def toRatio (x : Magnitude) : Nat × Nat :=
  scaled 2 x.significand 1 (-x.exponent)

def mul (x y : Magnitude) : Option Magnitude :=
  ofRatio (x.toRatio.1 * y.toRatio.1) (x.toRatio.2 * y.toRatio.2)

def div (x y : Magnitude) : Option Magnitude :=
  ofRatio (x.toRatio.1 * y.toRatio.2) (x.toRatio.2 * y.toRatio.1)

def powerOfTen (n : Nat) : Option Magnitude :=
  ofRatio (Nat.pow 10 n) 1

/-- Reads `significand * 10 ^ power`. The significand and the power of ten are each rounded to a
magnitude and so is their product or quotient; below `10 ^ -308` the division takes two steps. -/
def ofDecimal (significand : Nat) (power : Int) : Option Magnitude := do
  let x ← ofRatio significand 1
  if x = zero ∨ power < -616 then return zero
  else if 308 < power then none
  else if 0 ≤ power then x.mul (← powerOfTen power.toNat)
  else if -308 ≤ power then x.div (← powerOfTen (-power).toNat)
  else
    let y ← x.div (← powerOfTen 308)
    y.div (← powerOfTen (-power - 308).toNat)

end Magnitude

/-- A finite double: zero has two signs. -/
structure Binary64 where
  negative : Bool
  magnitude : Magnitude
deriving DecidableEq

end GuidedTours.Decimal
