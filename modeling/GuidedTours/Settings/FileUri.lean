import GuidedTours.Text.Percent

/-!
File URIs as names of databases. After the scheme there may be an authority between two slashes and
a third one, which must be empty or the local host; then come the path, the options after a
question mark, and a fragment that does not count. Every part is decoded by itself, and a zero byte
in it ends it. Options without a name are left out.
-/

set_option autoImplicit false

namespace GuidedTours

open Text

structure FileUri where
  path : Bytes
  options : List (Bytes × Bytes)

namespace FileUri

def scheme : Bytes := bytes "file:"

def part (bs : Bytes) : Bytes := (percentDecoded bs).takeWhile (· ≠ 0)

/-- What is left when the authority is taken off. It reaches up to the next slash, whatever stands
before that. -/
def afterAuthority? (bs : Bytes) : Option Bytes :=
  if (bytes "//").isPrefixOf bs then
    let rest := bs.drop 2
    let authority := rest.takeWhile (· ≠ '/'.toUInt8)
    if authority = [] ∨ authority = bytes "localhost" then some (rest.drop authority.length)
    else none
  else some bs

def option (bs : Bytes) : Bytes × Bytes :=
  let (name, value) := cut '=' bs
  (part name, part (value.getD []))

/-- Reads what follows the scheme. -/
def ofSuffix? (bs : Bytes) : Option FileUri :=
  (afterAuthority? bs).map fun rest ↦
    let (path, query) := cut '?' (rest.takeWhile (· ≠ '#'.toUInt8))
    { path := part path
      options := ((splitOn '&' (query.getD [])).map option).filter (·.1 ≠ []) }

/-- The number at the start of a text, decimal or hexadecimal. One of more than 31 bits counts as
zero. -/
def leadingNumber (cs : List Char) : Nat :=
  let n := match cs with
    | '0' :: x :: rest =>
      let digits := (rest.takeWhile fun c ↦ (hexDigit? c).isSome).filterMap hexDigit?
      if (x = 'x' ∨ x = 'X') ∧ digits ≠ [] then ofDigits 16 digits
      else ofDigits 10 (spanDigits cs).1
    | _ => ofDigits 10 (spanDigits cs).1
  if n < Int32.maxValue.toInt.toNat + 1 then n else 0

/-- Whether a value says yes, by a word in any case or by a number with some of its last eight bits
set. -/
def saysYes (value : Bytes) : Bool :=
  let cs := value.map fun b ↦ Char.ofNat b.toNat
  String.ofList (cs.map Char.toLower) ∈ ["on", "yes", "true"] || leadingNumber cs % 256 ≠ 0

/-- Of several options of one name the first counts here. -/
def isImmutable (uri : FileUri) : Bool :=
  (uri.options.lookup (bytes "immutable")).any saysYes

end FileUri

end GuidedTours
