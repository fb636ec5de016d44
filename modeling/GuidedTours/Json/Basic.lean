import GuidedTours.Decimal.Binary64

/-!
JSON values as they stand in a text: the members of an object keep their order and may repeat a
name, which their reader resolves. Whole numbers and doubles are different values.
-/

set_option autoImplicit false

namespace GuidedTours

/-- The last case stands for well-formed text that denotes no value: a number beyond the doubles,
a string with half a surrogate pair, an object with such a member name, a list or an object nested
too deep. It may be skipped, and reading it always fails. -/
inductive Json where
  | null
  | bool (value : Bool)
  | int (value : Int)
  | double (value : Decimal.Binary64)
  | text (value : String)
  | list (items : List Json)
  | object (members : List (String × Json))
  | unreadable
deriving Inhabited

namespace Json

def bool? : Json → Option Bool
  | .bool b => some b
  | _ => none

def text? : Json → Option String
  | .text s => some s
  | _ => none

def int64? : Json → Option Int64
  | .int n =>
    if Int64.minValue.toInt ≤ n ∧ n ≤ Int64.maxValue.toInt then some (Int64.ofInt n) else none
  | _ => none

def uint64? : Json → Option UInt64
  | .int n => if 0 ≤ n ∧ n.toNat < UInt64.size then some (UInt64.ofNat n.toNat) else none
  | _ => none

def uint32? : Json → Option UInt32
  | .int n => if 0 ≤ n ∧ n.toNat < UInt32.size then some (UInt32.ofNat n.toNat) else none
  | _ => none

def list? {α : Type} (read : Json → Option α) : Json → Option (List α)
  | .list items => items.mapM read
  | _ => none

/-- A name from a fixed table, alone or as the only member of an object that holds `null`. -/
def name? {α : Type} (table : List (String × α)) : Json → Option α
  | .text s => table.lookup s
  | .object [(s, .null)] => table.lookup s
  | _ => none

def ofInt64 (n : Int64) : Json := .int n.toInt

def ofUInt64 (n : UInt64) : Json := .int n.toNat

def ofUInt32 (n : UInt32) : Json := .int n.toNat

def ofList {α : Type} (write : α → Json) (xs : List α) : Json := .list (xs.map write)

theorem int64?_ofInt64 (n : Int64) : (ofInt64 n).int64? = some n := by
  rw [ofInt64, int64?, if_pos ⟨n.minValue_le_toInt, n.toInt_le⟩, Int64.ofInt_toInt]

theorem uint64?_ofUInt64 (n : UInt64) : (ofUInt64 n).uint64? = some n := by
  simp only [ofUInt64, uint64?, Int.natCast_nonneg, Int.toNat_natCast, n.toNat_lt_size, true_and,
    if_true, UInt64.ofNat_toNat]

theorem uint32?_ofUInt32 (n : UInt32) : (ofUInt32 n).uint32? = some n := by
  simp only [ofUInt32, uint32?, Int.natCast_nonneg, Int.toNat_natCast, n.toNat_lt_size, true_and,
    if_true, UInt32.ofNat_toNat]

theorem list?_ofList {α : Type} {read : Json → Option α} {write : α → Json}
    (h : ∀ a, read (write a) = some a) (xs : List α) :
    (ofList write xs).list? read = some xs := by
  simp only [ofList, list?]
  induction xs with
  | nil => rfl
  | cons x xs ih => simp [h, ih]

end Json

end GuidedTours
