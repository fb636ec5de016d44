/-!
Digits and the numbers they spell. A character stands for a digit only if it is an ASCII one, in
base ten as in base sixteen; hexadecimal digits are read in either case and written in lower case.
-/

set_option autoImplicit false

namespace GuidedTours.Text

def digit? (c : Char) : Option Nat :=
  if '0' ≤ c ∧ c ≤ '9' then some (c.toNat - '0'.toNat) else none

def hexDigit? (c : Char) : Option Nat :=
  if '0' ≤ c ∧ c ≤ '9' then some (c.toNat - '0'.toNat)
  else if 'a' ≤ c ∧ c ≤ 'f' then some (c.toNat - 'a'.toNat + 10)
  else if 'A' ≤ c ∧ c ≤ 'F' then some (c.toNat - 'A'.toNat + 10)
  else none

def digitChar (n : Nat) : Char :=
  if n < 10 then Char.ofNat ('0'.toNat + n) else Char.ofNat ('a'.toNat + n - 10)

theorem hexDigit?_digitChar {n : Nat} (h : n < 16) : hexDigit? (digitChar n) = some n := by
  have all : ∀ k : Fin 16, hexDigit? (digitChar k) = some k.val := by decide
  exact all ⟨n, h⟩

/-- The number that digits spell, the most significant first. -/
def ofDigits (base : Nat) (digits : List Nat) : Nat :=
  digits.foldl (fun n d ↦ base * n + d) 0

/-- The last `count` digits of `n`, the most significant first. -/
def toDigits (base : Nat) : Nat → Nat → List Nat
  | 0, _ => []
  | count + 1, n => toDigits base count (n / base) ++ [n % base]

theorem toDigits_lt {base : Nat} (h : 0 < base) :
    ∀ count n, ∀ d ∈ toDigits base count n, d < base
  | 0, _, _, hd => nomatch hd
  | count + 1, n, d, hd => by
    rcases List.mem_append.mp hd with hd | hd
    · exact toDigits_lt h count (n / base) d hd
    · rw [List.mem_singleton.mp hd]
      exact Nat.mod_lt n h

theorem ofDigits_append (base : Nat) (digits : List Nat) (d : Nat) :
    ofDigits base (digits ++ [d]) = base * ofDigits base digits + d := by
  simp [ofDigits]

theorem ofDigits_toDigits (base : Nat) :
    ∀ count n, ofDigits base (toDigits base count n) = n % Nat.pow base count
  | 0, n => (Nat.mod_one n).symm
  | count + 1, n => by
    have split : Nat.pow base (count + 1) = base * Nat.pow base count := Nat.mul_comm _ _
    rw [toDigits, ofDigits_append, ofDigits_toDigits base count, split, Nat.mod_mul, Nat.add_comm]

/-- The decimal digits at the start of a text, as numbers, and what follows them. -/
def spanDigits : List Char → List Nat × List Char
  | [] => ([], [])
  | c :: rest =>
    match digit? c with
    | some d => ((d :: (spanDigits rest).1), (spanDigits rest).2)
    | none => ([], c :: rest)

/-- A number in base ten, filled up with zeros to at least `width` digits. -/
def padded (width n : Nat) : List Char :=
  (toDigits 10 (max width (Nat.toDigits 10 n).length) n).map digitChar

end GuidedTours.Text
