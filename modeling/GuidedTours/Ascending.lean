/-!
Lists in strictly ascending order of a key, the form in which maps and sets are kept: each key
stands once, and two lists with the same elements are equal. Inserting keeps the order and replaces
the element that had the key; building from an ascending list gives it back.
-/

set_option autoImplicit false

namespace GuidedTours

section Ascending

variable {α κ : Type} [LE κ] [LT κ] [DecidableLT κ]

def Ascending (key : α → κ) (xs : List α) : Prop :=
  xs.Pairwise fun x y ↦ key x < key y

namespace Ascending

def insert (key : α → κ) (x : α) : List α → List α
  | [] => [x]
  | y :: ys =>
    if key x < key y then x :: y :: ys
    else if key y < key x then y :: insert key x ys
    else x :: ys

/-- The elements of a list in order; of several with one key the last stays. -/
def ofList (key : α → κ) (xs : List α) : List α :=
  xs.foldl (fun ys x ↦ insert key x ys) []

omit [LE κ] in
theorem mem_insert {key : α → κ} {x z : α} {ys : List α} (h : z ∈ insert key x ys) :
    z = x ∨ z ∈ ys := by
  induction ys with
  | nil => simpa [insert] using h
  | cons y ys ih =>
    simp only [insert] at h
    split at h
    · simpa using h
    · split at h
      · rcases List.mem_cons.mp h with rfl | h
        · simp
        · rcases ih h with h | h <;> simp [h]
      · rcases List.mem_cons.mp h with h | h <;> simp [h]

variable [Std.IsLinearOrder κ] [Std.LawfulOrderLT κ]

theorem insert_ascending {key : α → κ} {x : α} {ys : List α} (h : Ascending key ys) :
    Ascending key (insert key x ys) := by
  induction ys with
  | nil => exact List.pairwise_singleton _ _
  | cons y ys ih =>
    obtain ⟨hy, hys⟩ := List.pairwise_cons.mp h
    simp only [insert]
    split
    next lt =>
      refine List.pairwise_cons.mpr ⟨fun z hz ↦ ?_, h⟩
      rcases List.mem_cons.mp hz with rfl | hz
      · exact lt
      · exact Std.lt_trans lt (hy z hz)
    next notLt =>
      split
      next gt =>
        refine List.pairwise_cons.mpr ⟨fun z hz ↦ ?_, ih hys⟩
        rcases mem_insert hz with rfl | hz
        · exact gt
        · exact hy z hz
      next notGt =>
        have same : key x = key y := Std.le_antisymm (Std.not_lt.mp notGt) (Std.not_lt.mp notLt)
        refine List.pairwise_cons.mpr ⟨fun z hz ↦ ?_, hys⟩
        rw [same]
        exact hy z hz

theorem ofList_ascending (key : α → κ) (xs : List α) : Ascending key (ofList key xs) := by
  suffices ∀ ys, Ascending key ys → Ascending key (xs.foldl (fun ys x ↦ insert key x ys) ys) from
    this [] List.Pairwise.nil
  induction xs with
  | nil => exact fun _ h ↦ h
  | cons x xs ih => exact fun ys h ↦ ih _ (insert_ascending h)

theorem insert_last {key : α → κ} {x : α} {ys : List α} (h : ∀ y ∈ ys, key y < key x) :
    insert key x ys = ys ++ [x] := by
  induction ys with
  | nil => rfl
  | cons y ys ih =>
    have hy := h y List.mem_cons_self
    have notLt : ¬ key x < key y := fun lt ↦ Std.lt_irrefl (Std.lt_trans lt hy)
    simp [insert, notLt, hy, ih fun z hz ↦ h z (List.mem_cons_of_mem _ hz)]

theorem ofList_of_ascending {key : α → κ} {xs : List α} (h : Ascending key xs) :
    ofList key xs = xs := by
  suffices ∀ ys, Ascending key (ys ++ xs) →
      xs.foldl (fun ys x ↦ insert key x ys) ys = ys ++ xs from this [] h
  clear h
  induction xs with
  | nil => exact fun ys _ ↦ (List.append_nil ys).symm
  | cons x xs ih =>
    intro ys h
    have below : ∀ y ∈ ys, key y < key x := fun y hy ↦
      (List.pairwise_append.mp h).2.2 y hy x List.mem_cons_self
    rw [List.foldl_cons, insert_last below, ih (ys ++ [x]) (by simpa using h)]
    simp

end Ascending

end Ascending

/-- A map from texts. -/
structure Dictionary (α : Type) where
  entries : List (String × α)
  ascending : Ascending Prod.fst entries

namespace Dictionary

variable {α : Type}

def empty : Dictionary α := ⟨[], List.Pairwise.nil⟩

def get? (m : Dictionary α) (key : String) : Option α :=
  m.entries.lookup key

def insert (m : Dictionary α) (key : String) (value : α) : Dictionary α :=
  ⟨Ascending.insert Prod.fst (key, value) m.entries, Ascending.insert_ascending m.ascending⟩

/-- Of several entries with one key the last counts. -/
def ofList (entries : List (String × α)) : Dictionary α :=
  ⟨Ascending.ofList Prod.fst entries, Ascending.ofList_ascending _ _⟩

theorem ofList_entries (m : Dictionary α) : ofList m.entries = m := by
  cases m with
  | mk entries ascending => simp [ofList, Ascending.ofList_of_ascending ascending]

end Dictionary

end GuidedTours
