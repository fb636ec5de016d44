import GuidedTours.Text.Digits

/-!
The bytes of addresses. An address is cut at single ASCII characters, and in the pieces every byte
may be written as a percent sign and two hexadecimal digits.
-/

set_option autoImplicit false

namespace GuidedTours.Text

abbrev Bytes := List UInt8

def bytes (s : String) : Bytes := s.toUTF8.toList

def hexByte? (b : UInt8) : Option Nat := hexDigit? (Char.ofNat b.toNat)

/-- A percent sign without two digits after it stands for itself. -/
def percentDecoded : Bytes → Bytes
  | [] => []
  | b :: rest =>
    if b = '%'.toUInt8 then
      match rest with
      | h :: h' :: rest' =>
        match hexByte? h, hexByte? h' with
        | some d, some d' => UInt8.ofNat (16 * d + d') :: percentDecoded rest'
        | _, _ => b :: percentDecoded (h :: h' :: rest')
      | rest => b :: rest
    else b :: percentDecoded rest

/-- What stands before the first occurrence of a character, and what after it. -/
def cut (c : Char) (bs : Bytes) : Bytes × Option Bytes :=
  match bs.dropWhile (· ≠ c.toUInt8) with
  | [] => (bs, none)
  | _ :: rest => (bs.takeWhile (· ≠ c.toUInt8), some rest)

def splitOn (c : Char) : Bytes → List Bytes
  | [] => [[]]
  | b :: rest =>
    if b = c.toUInt8 then [] :: splitOn c rest
    else
      match splitOn c rest with
      | [] => [[b]]
      | part :: parts => (b :: part) :: parts

/-- Removes a text from the front as often as it stands there. -/
def dropAll (front : Bytes) : Nat → Bytes → Bytes
  | 0, bs => bs
  | n + 1, bs =>
    if front.isPrefixOf bs then dropAll front n (bs.drop front.length) else bs

def occursIn (part : Bytes) : Bytes → Bool
  | [] => part.isEmpty
  | b :: rest => part.isPrefixOf (b :: rest) || occursIn part rest

end GuidedTours.Text
