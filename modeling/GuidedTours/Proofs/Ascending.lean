import GuidedTours.Ascending
import Mathlib.Data.List.Induction
import Mathlib.Data.List.Sort

/-!
Membership in ascending lists. An element that is inserted joins the others unless its key is taken,
so a list without repeated keys keeps all its elements when it is brought in order, and the order in
which they came does not matter.
-/

set_option autoImplicit false

namespace GuidedTours

namespace Ascending

variable {α κ : Type} [LE κ] [LT κ] [DecidableLT κ] [Std.IsLinearOrder κ] [Std.LawfulOrderLT κ]
  {key : α → κ} {x z : α} {xs ys : List α}

/-- If only the element itself can have its key, nothing is replaced by it. -/
theorem mem_insert_iff (h : ∀ y ∈ ys, key y = key x → y = x) :
    z ∈ insert key x ys ↔ z = x ∨ z ∈ ys := by
  refine ⟨mem_insert, fun hz ↦ ?_⟩
  induction ys with
  | nil => simpa [insert] using hz
  | cons y ys ih =>
    simp only [insert]
    split
    next hlt => exact List.mem_cons.mpr hz
    next hnotLt =>
      split
      next hgt =>
        have hrest := ih fun w hw ↦ h w (List.mem_cons_of_mem y hw)
        rcases hz with hz | hz
        · exact List.mem_cons_of_mem y (hrest (.inl hz))
        · rcases List.mem_cons.mp hz with hz | hz
          · exact hz ▸ List.mem_cons_self
          · exact List.mem_cons_of_mem y (hrest (.inr hz))
      next hnotGt =>
        have hkey : key y = key x := Std.le_antisymm (Std.not_lt.mp hnotLt) (Std.not_lt.mp hnotGt)
        have hsame : y = x := h y List.mem_cons_self hkey
        rcases hz with hz | hz
        · exact hz ▸ List.mem_cons_self
        · exact hsame ▸ hz

/-- Whatever is replaced, the keys are those of the elements that came. -/
theorem mem_keys_insert {k : κ} :
    k ∈ (insert key x ys).map key ↔ k = key x ∨ k ∈ ys.map key := by
  induction ys with
  | nil => simp [insert]
  | cons y ys ih =>
    simp only [insert]
    split
    next => simp
    next hnotLt =>
      split
      next =>
        rw [List.map_cons, List.mem_cons, ih, List.map_cons, List.mem_cons, or_left_comm]
      next hnotGt =>
        have hkey : key y = key x := Std.le_antisymm (Std.not_lt.mp hnotLt) (Std.not_lt.mp hnotGt)
        simp [hkey]

theorem mem_keys_ofList {k : κ} : k ∈ (ofList key xs).map key ↔ k ∈ xs.map key := by
  induction xs using List.reverseRecOn with
  | nil => rfl
  | append_singleton xs x ih =>
    rw [ofList, List.foldl_append]
    refine mem_keys_insert.trans ?_
    rw [← ofList, ih, List.map_append, List.mem_append, List.map_singleton, List.mem_singleton,
      or_comm]

theorem mem_ofList_iff (hkeys : (xs.map key).Nodup) : z ∈ ofList key xs ↔ z ∈ xs := by
  induction xs using List.reverseRecOn generalizing z with
  | nil => rfl
  | append_singleton xs x ih =>
    obtain ⟨hxs, hx⟩ : (xs.map key).Nodup ∧ ∀ y ∈ xs, key y ≠ key x := by
      simpa [List.nodup_append] using hkeys
    have hnew : ∀ y ∈ ofList key xs, key y = key x → y = x :=
      fun y hy hkey ↦ absurd hkey (hx y ((ih hxs).mp hy))
    rw [ofList, List.foldl_append]
    refine (mem_insert_iff hnew).trans ?_
    rw [ih hxs, List.mem_append, List.mem_singleton, or_comm]

omit [DecidableLT κ] [Std.IsLinearOrder κ] in
theorem nodup_keys (h : Ascending key xs) : (xs.map key).Nodup := by
  refine List.pairwise_map.mpr (List.Pairwise.imp ?_ h)
  intro x y hlt heq
  exact Std.lt_irrefl (heq ▸ hlt)

theorem ofList_perm (hkeys : (xs.map key).Nodup) : (ofList key xs).Perm xs :=
  (List.perm_ext_iff_of_nodup (nodup_keys (ofList_ascending key xs)).of_map hkeys.of_map).mpr
    fun _ ↦ mem_ofList_iff hkeys

omit [DecidableLT κ] [Std.IsLinearOrder κ] in
/-- Ascending lists of the same elements are equal. -/
theorem eq_of_mem_iff (hxs : Ascending key xs) (hys : Ascending key ys)
    (h : ∀ z, z ∈ xs ↔ z ∈ ys) : xs = ys := by
  have : Std.Irrefl fun x y : α ↦ key x < key y := ⟨fun _ ↦ Std.lt_irrefl⟩
  have : Std.Antisymm fun x y : α ↦ key x < key y :=
    ⟨fun _ _ hlt hgt ↦ absurd hgt (Std.not_gt_of_lt hlt)⟩
  exact List.Pairwise.eq_of_mem_iff hxs hys @h

end Ascending

section Lookup

variable {β : Type} (key name : String) (value : β) (entries : List (String × β))

theorem lookup_cons_eq_ite : ((key, value) :: entries).lookup name =
    if name = key then some value else entries.lookup name := by
  rw [List.lookup_cons]
  by_cases hname : name = key
  · rw [if_pos hname, beq_iff_eq.mpr hname]
  · rw [if_neg hname, beq_eq_false_iff_ne.mpr hname]

/-- An entry that is inserted is found under its key, and the others as before. -/
theorem lookup_insert : (Ascending.insert Prod.fst (key, value) entries).lookup name =
    if name = key then some value else entries.lookup name := by
  induction entries with
  | nil => exact lookup_cons_eq_ite key name value []
  | cons other rest ih =>
    obtain ⟨otherKey, otherValue⟩ := other
    simp only [Ascending.insert]
    split
    next => exact lookup_cons_eq_ite key name value _
    next hnotLt =>
      split
      next hgt =>
        have hne : otherKey ≠ key := fun hsame ↦ Std.lt_irrefl (hsame ▸ hgt)
        rw [lookup_cons_eq_ite, ih, lookup_cons_eq_ite]
        by_cases hother : name = otherKey
        · rw [if_pos hother, if_pos hother, if_neg (hother ▸ hne)]
        · rw [if_neg hother, if_neg hother]
      next hnotGt =>
        obtain rfl : otherKey = key :=
          Std.le_antisymm (Std.not_lt.mp hnotLt) (Std.not_lt.mp hnotGt)
        rw [lookup_cons_eq_ite, lookup_cons_eq_ite]
        by_cases hother : name = otherKey
        · rw [if_pos hother, if_pos hother]
        · rw [if_neg hother, if_neg hother, if_neg hother]

variable {key name value entries}

theorem lookup_eq_some_iff_mem (hkeys : (entries.map Prod.fst).Nodup) :
    entries.lookup name = some value ↔ (name, value) ∈ entries := by
  induction entries with
  | nil => simp
  | cons entry rest ih =>
    obtain ⟨key, other⟩ := entry
    obtain ⟨hkey, hrest⟩ := List.nodup_cons.mp hkeys
    rw [lookup_cons_eq_ite, List.mem_cons, Prod.mk.injEq]
    by_cases hname : name = key
    · have habsent : (name, value) ∉ rest :=
        fun hmem ↦ hkey (List.mem_map.mpr ⟨_, hmem, hname⟩)
      rw [if_pos hname, Option.some.injEq, eq_comm]
      simp [hname ▸ habsent, hname]
    · rw [if_neg hname, ih hrest]
      simp [hname]

end Lookup

theorem Dictionary.get?_ofList_eq_some_iff {α : Type} {entries : List (String × α)} {name : String}
    {value : α} (hkeys : (entries.map Prod.fst).Nodup) :
    (ofList entries).get? name = some value ↔ (name, value) ∈ entries :=
  (lookup_eq_some_iff_mem (Ascending.nodup_keys (ofList entries).ascending)).trans
    (Ascending.mem_ofList_iff hkeys)

/-- In whatever order the entries of a map come, the map is the same. -/
theorem Dictionary.ofList_of_perm {α : Type} {entries entries' : List (String × α)}
    (h : entries.Perm entries') (hkeys : (entries.map Prod.fst).Nodup) :
    ofList entries = ofList entries' := by
  have hkeys' : (entries'.map Prod.fst).Nodup := (h.map Prod.fst).nodup_iff.mp hkeys
  have hsame : Ascending.ofList Prod.fst entries = Ascending.ofList Prod.fst entries' := by
    refine Ascending.eq_of_mem_iff (Ascending.ofList_ascending _ _)
      (Ascending.ofList_ascending _ _) fun entry ↦ ?_
    rw [Ascending.mem_ofList_iff hkeys, Ascending.mem_ofList_iff hkeys', h.mem_iff]
  simp only [ofList, hsame]

end GuidedTours
