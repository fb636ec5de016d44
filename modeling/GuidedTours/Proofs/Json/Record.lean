import GuidedTours.Json.Record
import GuidedTours.Proofs.Ascending
import Mathlib.Data.Option.Basic

/-!
Records and what is read where they were written. Every member of a written record has a name of its
own, so each field finds what was written for it, and a member that was left out is read as no
value or as an empty list again.
-/

set_option autoImplicit false

namespace GuidedTours.Json

variable {α : Type} {read : Json → Option α} {write : α → Json} {field name : String}

/-- What was written is read back, and it was never `null`. -/
class Restores (read : Json → Option α) (write : α → Json) : Prop where
  read_write (a : α) : read (write a) = some a
  read_null : read .null = none

theorem Restores.injective (read : Json → Option α) [Restores read write] :
    Function.Injective write := by
  intro a b hab
  have hread : read (write a) = read (write b) := congrArg read hab
  exact Option.some.inj ((read_write a).symm.trans (hread.trans (read_write b)))

instance : Restores text? .text := ⟨fun _ ↦ rfl, rfl⟩

instance : Restores int64? ofInt64 := ⟨int64?_ofInt64, rfl⟩

instance : Restores uint64? ofUInt64 := ⟨uint64?_ofUInt64, rfl⟩

instance [Restores read write] : Restores (list? read) (ofList write) :=
  ⟨list?_ofList Restores.read_write, rfl⟩

attribute [simp] int64?_ofInt64 uint64?_ofUInt64 uint32?_ofUInt32

@[simp] theorem text?_text (s : String) : (Json.text s).text? = some s := rfl

@[simp] theorem bool?_bool (b : Bool) : (Json.bool b).bool? = some b := rfl

@[simp] theorem list?_ofList_of_restores [Restores read write] (xs : List α) :
    (ofList write xs).list? read = some xs :=
  Restores.read_write xs

section Members

@[simp] theorem lookup_memberIfSome (o : Option α) :
    (memberIfSome field write o).lookup name = if name = field then o.map write else none := by
  cases o with
  | none => simp [memberIfSome]
  | some a => exact lookup_cons_eq_ite field name (write a) []

@[simp] theorem filter_memberIfSome (o : Option α) :
    (memberIfSome field write o).filter (·.1 == name) =
      if field = name then memberIfSome field write o else [] := by
  cases o <;> by_cases h : field = name <;> simp [memberIfSome, h]

@[simp] theorem length_memberIfSome_le (o : Option α) :
    (memberIfSome field write o).length ≤ 1 := by
  cases o <;> simp [memberIfSome]

theorem record?_object {members : List (String × Json)} {fields : List String}
    (h : ∀ f ∈ fields, (members.filter (·.1 == f)).length ≤ 1) :
    (Json.object members).record? fields = some ⟨members, false⟩ := by
  rw [record?, if_pos (by simpa using h)]

/-- What is written of a list that is left out when it is empty. -/
def ifAny (write : α → Json) (xs : List α) : Option Json :=
  if xs = [] then none else some (ofList write xs)

@[simp] theorem lookup_memberIfAny (xs : List α) :
    (memberIfAny field write xs).lookup name = if name = field then ifAny write xs else none := by
  cases xs with
  | nil => simp [memberIfAny, ifAny]
  | cons x xs => exact lookup_cons_eq_ite field name (ofList write (x :: xs)) []

@[simp] theorem filter_memberIfAny (xs : List α) :
    (memberIfAny field write xs).filter (·.1 == name) =
      if field = name then memberIfAny field write xs else [] := by
  cases xs <;> by_cases h : field = name <;> simp [memberIfAny, h]

@[simp] theorem length_memberIfAny_le (xs : List α) :
    (memberIfAny field write xs).length ≤ 1 := by
  cases xs <;> simp [memberIfAny]

end Members

section Fields

namespace Record

theorem nullable_eq_some_iff {v : Json} {a : α} (hnull : read .null = none) :
    nullable read v = some (some a) ↔ read v = some a := by
  unfold nullable
  split
  next => simp [hnull]
  next => simp

@[simp] theorem nullable_orNull [Restores read write] (o : Option α) :
    nullable read (orNull write o) = some o := by
  cases o with
  | none => rfl
  | some a => exact (nullable_eq_some_iff (Restores.read_null write)).mpr (Restores.read_write a)

/-- What a field that may be left out is read as. -/
def optionally (read : Json → Option α) (found : Option Json) : Option (Option α) :=
  found.elim (some none) (nullable read)

/-- What a field with a default is read as. -/
def elseDefault (value : α) (read : Json → Option α) (found : Option Json) : Option α :=
  found.elim (some value) read

variable {r : Record} {members : List (String × Json)}

@[simp] theorem required_eq : r.required field read = (r.members.lookup field).bind read := rfl

@[simp] theorem defaulting_eq {value : α} :
    r.defaulting field value read = elseDefault value read (r.members.lookup field) := by
  unfold defaulting elseDefault
  cases r.members.lookup field <;> rfl

@[simp] theorem optional_eq :
    r.optional field read = optionally read (r.members.lookup field) := by
  rw [optional, defaulting_eq]
  rfl

@[simp] theorem optionalMember_eq :
    (Record.mk members false).optionalMember field read =
      optionally read (members.lookup field) := by
  unfold optionalMember optionally
  cases members.lookup field <;> rfl

@[simp] theorem elseDefault_some (value : α) (v : Json) :
    elseDefault value read (some v) = read v := rfl

@[simp] theorem elseDefault_ifAny [Restores read write] (xs : List α) :
    elseDefault [] (list? read) (ifAny write xs) = some xs := by
  cases xs with
  | nil => rfl
  | cons x xs => exact list?_ofList_of_restores (x :: xs)

@[simp] theorem optionally_some (v : Json) : optionally read (some v) = nullable read v := rfl

theorem optionally_map_iff (hnull : read .null = none) (o : Option α) :
    optionally read (o.map write) = some o ↔ ∀ a ∈ o, read (write a) = some a := by
  cases o with
  | none => simp [optionally]
  | some a => simp [nullable_eq_some_iff hnull]

@[simp] theorem optionally_map [Restores read write] (o : Option α) :
    optionally read (o.map write) = some o :=
  (optionally_map_iff (Restores.read_null write) o).mpr fun a _ ↦ Restores.read_write a

end Record

end Fields

end GuidedTours.Json
