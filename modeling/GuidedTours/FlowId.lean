import GuidedTours.Ascending
import GuidedTours.Text.Blank
import GuidedTours.Text.Digits

/-!
Flow ids: 128 bits, written as 32 lower-case hexadecimal digits in groups of 8, 4, 4, 4 and 12.
Read are the digits in either case, in these groups or in one, and the groups also in braces or
after `urn:uuid:`.
-/

set_option autoImplicit false

namespace GuidedTours

open Text

structure FlowId where
  bits : BitVec 128
deriving DecidableEq, Hashable, Inhabited

namespace FlowId

instance : LT FlowId := ⟨fun a b ↦ a.bits < b.bits⟩

instance : LE FlowId := ⟨fun a b ↦ a.bits ≤ b.bits⟩

instance : DecidableLT FlowId := fun a b ↦ inferInstanceAs (Decidable (a.bits < b.bits))

theorem ext {a b : FlowId} (h : a.bits = b.bits) : a = b := by
  cases a; cases b; simp_all

instance : Std.IsLinearOrder FlowId where
  le_refl a := BitVec.le_refl a.bits
  le_trans _ _ _ h h' := BitVec.le_trans h h'
  le_antisymm _ _ h h' := ext (BitVec.le_antisymm h h')
  le_total a b := BitVec.le_total a.bits b.bits

instance : Std.LawfulOrderLT FlowId where
  lt_iff a b := Std.LawfulOrderLT.lt_iff a.bits b.bits

def groups : List Nat := [8, 4, 4, 4, 12]

/-- Cuts digits into groups of the given sizes and puts a hyphen between them. -/
def hyphenate : List Nat → List Char → List Char
  | [], _ => []
  | [n], cs => cs.take n
  | n :: ns, cs => cs.take n ++ '-' :: hyphenate ns (cs.drop n)

/-- The digits of groups of exactly the given sizes with a hyphen between them. -/
def dehyphenate? : List Nat → List Char → Option (List Char)
  | [], cs => if cs = [] then some [] else none
  | [n], cs => if cs.length = n then some cs else none
  | n :: ns, cs =>
    match cs.drop n with
    | '-' :: rest => (dehyphenate? ns rest).map (cs.take n ++ ·)
    | _ => none

def ofDigits? (cs : List Char) : Option FlowId :=
  (cs.mapM hexDigit?).map fun ds ↦ ⟨BitVec.ofNat 128 (ofDigits 16 ds)⟩

def ofGroups? (cs : List Char) : Option FlowId :=
  (dehyphenate? groups cs).bind ofDigits?

def urn : List Char := ['u', 'r', 'n', ':', 'u', 'u', 'i', 'd', ':']

def parse? (s : String) : Option FlowId :=
  let cs := s.toList
  if cs.length = 32 then ofDigits? cs
  else if cs.head? = some '\x7b' ∧ cs.getLast? = some '\x7d' then ofGroups? (cs.drop 1).dropLast
  else if cs.length = 45 ∧ (cs.take 9).map Char.toLower = urn then ofGroups? (cs.drop 9)
  else ofGroups? cs

def digits (id : FlowId) : List Nat := toDigits 16 32 id.bits.toNat

def text (id : FlowId) : String :=
  String.ofList (hyphenate groups (id.digits.map digitChar))

/-- Reads an id that somebody entered: blanks around it do not matter. -/
def parseEntered? (s : String) : Option FlowId := parse? (trimmed s)

end FlowId

/-- A set of flow ids. -/
structure FlowIdSet where
  ids : List FlowId
  ascending : Ascending id ids

namespace FlowIdSet

def empty : FlowIdSet := ⟨[], List.Pairwise.nil⟩

def contains (s : FlowIdSet) (x : FlowId) : Bool := s.ids.contains x

def insert (s : FlowIdSet) (x : FlowId) : FlowIdSet :=
  ⟨Ascending.insert id x s.ids, Ascending.insert_ascending s.ascending⟩

def ofList (ids : List FlowId) : FlowIdSet :=
  ⟨Ascending.ofList id ids, Ascending.ofList_ascending _ _⟩

def diff (s t : FlowIdSet) : FlowIdSet :=
  ⟨s.ids.filter fun x ↦ !t.contains x, s.ascending.filter _⟩

theorem ofList_ids (s : FlowIdSet) : ofList s.ids = s := by
  cases s with
  | mk ids ascending => simp [ofList, Ascending.ofList_of_ascending ascending]

end FlowIdSet

end GuidedTours
