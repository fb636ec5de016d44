import GuidedTours.Json.Basic

/-!
Records in JSON. A record is written as an object, or as a list of its fields in the order of their
declaration. Unknown members are ignored, a field given twice is an error. A list may stop early
only before fields that have a default.
-/

set_option autoImplicit false

namespace GuidedTours.Json

structure Record where
  members : List (String × Json)
  positional : Bool

def record? (fields : List String) : Json → Option Record
  | .object members =>
    if fields.all fun f ↦ (members.filter (·.1 == f)).length ≤ 1 then some ⟨members, false⟩
    else none
  | .list items =>
    if items.length ≤ fields.length then some ⟨fields.zip items, true⟩ else none
  | _ => none

namespace Record

variable {α : Type}

def required (r : Record) (field : String) (read : Json → Option α) : Option α :=
  (r.members.lookup field).bind read

def defaulting (r : Record) (field : String) (value : α) (read : Json → Option α) : Option α :=
  match r.members.lookup field with
  | none => some value
  | some v => read v

/-- Where `null` stands for no value. -/
def nullable (read : Json → Option α) : Json → Option (Option α)
  | .null => some none
  | v => (read v).map some

/-- A field that may be left out. -/
def optional (r : Record) (field : String) (read : Json → Option α) : Option (Option α) :=
  r.defaulting field none (nullable read)

/-- A field that an object may leave out but a list may not. -/
def optionalMember (r : Record) (field : String) (read : Json → Option α) :
    Option (Option α) :=
  match r.members.lookup field with
  | none => if r.positional then none else some none
  | some v => nullable read v

end Record

/-- A member that is left out when there is no value. -/
def memberIfSome {α : Type} (field : String) (write : α → Json) : Option α → List (String × Json)
  | none => []
  | some a => [(field, write a)]

/-- A member that is left out when the list is empty. -/
def memberIfAny {α : Type} (field : String) (write : α → Json) : List α → List (String × Json)
  | [] => []
  | xs => [(field, ofList write xs)]

def orNull {α : Type} (write : α → Json) : Option α → Json
  | none => .null
  | some a => write a

end GuidedTours.Json
