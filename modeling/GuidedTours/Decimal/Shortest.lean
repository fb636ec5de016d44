import GuidedTours.Decimal.Binary64

/-!
The shortest decimal text of a double. Every real number nearer to a magnitude than to its
neighbours rounds back to it, and so do the two midpoints when its significand is even. The grid
of one-digit decimals is tried first, then that of two digits and so on; on each grid only the two
neighbours of the exact value can lie in this interval. Seventeen digits always suffice.
-/

set_option autoImplicit false

namespace GuidedTours.Decimal

/-- Stands for `digits * 10 ^ power`. -/
structure Scientific where
  digits : Nat
  power : Int
deriving DecidableEq

/-- The greatest `t` with `10 ^ t ≤ numerator / denominator`, for positive operands. -/
def decimalExponent (numerator denominator : Nat) : Int :=
  let guess : Int := ((numerator.log2 : Int) - denominator.log2 - 1) * 30103 / 100000 - 1
  let reaches (i : Nat) : Bool :=
    let q := scaled 10 numerator denominator (guess + i)
    q.2 ≤ q.1
  match [3, 2, 1].find? reaches with
  | some i => guess + (i : Nat)
  | none => guess

namespace Magnitude

/-- The decimal with the given power that reads back as `x` and is nearest to it. -/
def onGrid (x : Magnitude) (power : Int) : Option Scientific :=
  let m := x.significand
  let e := x.exponent - 2
  let unit := Nat.pow 2 e.toNat * Nat.pow 10 (-power).toNat
  let step := Nat.pow 2 (-e).toNat * Nat.pow 10 power.toNat
  let lower := (if m = fractionCount ∧ -1074 < x.exponent then 4 * m - 1 else 4 * m - 2) * unit
  let upper := (4 * m + 2) * unit
  let closed := m % 2 = 0
  let floor := 4 * m * unit / step
  let reads (n : Nat) : Bool :=
    (lower < n * step && n * step < upper) ||
      (closed && (n * step == lower || n * step == upper))
  let twice := 2 * (4 * m * unit % step)
  let nearest := if twice < step ∨ (twice = step ∧ floor % 2 = 0) then floor else floor + 1
  match reads floor, reads (floor + 1) with
  | true, true => some ⟨nearest, power⟩
  | true, false => some ⟨floor, power⟩
  | false, true => some ⟨floor + 1, power⟩
  | false, false => none

/-- The fewest digits that read back, for a magnitude other than zero. -/
def shortest (x : Magnitude) : Scientific :=
  let q := x.toRatio
  let top := decimalExponent q.1 q.2
  match (List.range 17).findSome? fun (n : Nat) ↦ x.onGrid (top - n) with
  | some d => if d.digits % 10 = 0 then ⟨d.digits / 10, d.power + 1⟩ else d
  | none => ⟨0, 0⟩

end Magnitude

/-- Where the positional notation of `digits * 10 ^ power` ends: a point may stand up to four
zeros left of the digits and up to sixteen places into them; all else has an exponent. -/
def Scientific.render (d : Scientific) : List Char :=
  let digits := Nat.toDigits 10 d.digits
  let point : Int := digits.length + d.power
  if 0 ≤ d.power ∧ point ≤ 16 then
    digits ++ List.replicate d.power.toNat '0' ++ ['.', '0']
  else if 0 < point ∧ point ≤ 16 then
    digits.take point.toNat ++ '.' :: digits.drop point.toNat
  else if -5 < point ∧ point ≤ 0 then
    '0' :: '.' :: List.replicate (-point).toNat '0' ++ digits
  else
    let whole := digits.take 1
    let fraction := if digits.length = 1 then [] else '.' :: digits.drop 1
    whole ++ fraction ++ 'e' :: (toString (point - 1)).toList

def Binary64.render (x : Binary64) : List Char :=
  let sign := if x.negative then ['-'] else []
  if x.magnitude = Magnitude.zero then sign ++ ['0', '.', '0']
  else sign ++ x.magnitude.shortest.render

end GuidedTours.Decimal
