import GuidedTours.StepTree.Edit
import Mathlib.Data.List.Find
import Mathlib.Data.List.Nodup
import Mathlib.Data.List.Perm.Basic

/-!
Changing and erasing the first element with a property. Every other element stays as it is, and
where a key tells the elements apart the change concerns exactly the one that has it. Erasing what
is repeated leaves the same elements, in whatever order they come.
-/

set_option autoImplicit false

namespace GuidedTours

variable {α β κ : Type} {p : α → Bool} {f : α → α} {xs : List α} {x y : α}

theorem mem_modifyFirst (h : y ∈ modifyFirst p f xs) : y ∈ xs ∨ ∃ x ∈ xs, p x ∧ y = f x := by
  induction xs with
  | nil => exact absurd h List.not_mem_nil
  | cons x xs ih =>
    rw [modifyFirst] at h
    split at h
    · rename_i hp
      rcases List.mem_cons.mp h with hy | hy
      · exact .inr ⟨x, List.mem_cons_self, hp, hy⟩
      · exact .inl (List.mem_cons_of_mem x hy)
    · rcases List.mem_cons.mp h with hy | hy
      · exact .inl (hy ▸ List.mem_cons_self)
      · rcases ih hy with hmem | ⟨z, hz, hp, hfz⟩
        · exact .inl (List.mem_cons_of_mem x hmem)
        · exact .inr ⟨z, List.mem_cons_of_mem x hz, hp, hfz⟩

theorem modifyFirst_append_cons {before later : List α} (hbefore : ∀ y ∈ before, ¬ p y)
    (hx : p x) : modifyFirst p f (before ++ x :: later) = before ++ f x :: later := by
  induction before with
  | nil => rw [List.nil_append, modifyFirst, if_pos hx, List.nil_append]
  | cons y ys ih =>
    rw [List.cons_append, modifyFirst, if_neg (hbefore y List.mem_cons_self),
      ih fun z hz ↦ hbefore z (List.mem_cons_of_mem y hz), List.cons_append]

theorem modifyFirst_append_left {ys : List α} (h : ∃ x ∈ xs, p x) :
    modifyFirst p f (xs ++ ys) = modifyFirst p f xs ++ ys := by
  obtain ⟨x, hx, hp⟩ := h
  induction xs with
  | nil => exact absurd hx List.not_mem_nil
  | cons z zs ih =>
    rw [List.cons_append, modifyFirst, modifyFirst]
    split
    next => rw [List.cons_append]
    next hz =>
      rcases List.mem_cons.mp hx with rfl | hmem
      · exact absurd hp hz
      · rw [ih hmem, List.cons_append]

theorem map_modifyFirst {g : α → β} (h : ∀ x, p x → g (f x) = g x) :
    (modifyFirst p f xs).map g = xs.map g := by
  induction xs with
  | nil => rfl
  | cons x xs ih =>
    rw [modifyFirst]
    split
    · rename_i hp
      rw [List.map_cons, List.map_cons, h x hp]
    · rw [List.map_cons, List.map_cons, ih]

/-- Changing the first element on either side of a map is the same if the map makes the properties
and the changes correspond. -/
theorem map_modifyFirst_of_corresponds {g : α → β} {q : β → Bool} {f' : β → β}
    (hp : ∀ x ∈ xs, q (g x) = p x) (hf : ∀ x ∈ xs, p x → g (f x) = f' (g x)) :
    (modifyFirst p f xs).map g = modifyFirst q f' (xs.map g) := by
  induction xs with
  | nil => rfl
  | cons x xs ih =>
    have hq := hp x List.mem_cons_self
    rw [modifyFirst, List.map_cons, modifyFirst, hq]
    split
    · rename_i hx
      rw [List.map_cons, hf x List.mem_cons_self hx]
    · rw [List.map_cons, ih (fun y hy ↦ hp y (List.mem_cons_of_mem x hy))
        fun y hy ↦ hf y (List.mem_cons_of_mem x hy)]

theorem find?_modifyFirst_self (hf : ∀ x, p x → p (f x)) :
    (modifyFirst p f xs).find? p = (xs.find? p).map f := by
  induction xs with
  | nil => rfl
  | cons x xs ih =>
    rw [modifyFirst]
    split
    next hx => rw [List.find?_cons_of_pos (hf x hx), List.find?_cons_of_pos hx, Option.map_some]
    next hx => rw [List.find?_cons_of_neg hx, List.find?_cons_of_neg hx, ih]

theorem modifyFirst_of_find? (h : xs.find? p = some x) (hf : f x = x) :
    modifyFirst p f xs = xs := by
  induction xs with
  | nil => rfl
  | cons y ys ih =>
    rw [List.find?_cons] at h
    by_cases hy : p y
    · obtain rfl : y = x := by simpa [hy] using h
      rw [modifyFirst, if_pos hy, hf]
    · rw [modifyFirst, if_neg hy, ih (by simpa [hy] using h)]

theorem modifyFirst_of_forall_not (h : ∀ x ∈ xs, ¬ p x) : modifyFirst p f xs = xs := by
  induction xs with
  | nil => rfl
  | cons x xs ih =>
    rw [modifyFirst, if_neg (h x List.mem_cons_self),
      ih fun y hy ↦ h y (List.mem_cons_of_mem x hy)]

theorem modifyFirst_congr {g : α → α} (h : ∀ x ∈ xs, p x → f x = g x) :
    modifyFirst p f xs = modifyFirst p g xs := by
  induction xs with
  | nil => rfl
  | cons x xs ih =>
    rw [modifyFirst, modifyFirst]
    split
    next hx => rw [h x List.mem_cons_self hx]
    next => rw [ih fun y hy ↦ h y (List.mem_cons_of_mem x hy)]

theorem modifyFirst_of_forall (h : ∀ x ∈ xs, p x → f x = x) : modifyFirst p f xs = xs := by
  cases hfind : xs.find? p with
  | none => exact modifyFirst_of_forall_not (by simpa using hfind)
  | some x =>
    have hx : p x := List.find?_some hfind
    exact modifyFirst_of_find? hfind (h x (List.mem_of_find?_eq_some hfind) hx)

/-- Two changes of the first element are one if the first keeps it the first. -/
theorem modifyFirst_modifyFirst_self {g : α → α} (hf : ∀ x, p x → p (f x)) :
    modifyFirst p g (modifyFirst p f xs) = modifyFirst p (fun x ↦ g (f x)) xs := by
  induction xs with
  | nil => rfl
  | cons x xs ih =>
    by_cases hx : p x
    · rw [modifyFirst, if_pos hx, modifyFirst, if_pos (hf x hx), modifyFirst, if_pos hx]
    · rw [modifyFirst, if_neg hx, modifyFirst, if_neg hx, ih, modifyFirst, if_neg hx]

section ChangedAgain

/-! A property that no element has until one is changed is that of the changed one alone. -/

variable {q : α → Bool} {g : α → α} (hq : ∀ x ∈ xs, ¬ q x) (hf : ∀ x ∈ xs, p x → q (f x))

include hq hf

theorem modifyFirst_modifyFirst :
    modifyFirst q g (modifyFirst p f xs) = modifyFirst p (fun x ↦ g (f x)) xs := by
  induction xs with
  | nil => rfl
  | cons x xs ih =>
    have hrest := ih (fun y hy ↦ hq y (List.mem_cons_of_mem x hy))
      fun y hy ↦ hf y (List.mem_cons_of_mem x hy)
    by_cases hx : p x
    · have hchanged := hf x List.mem_cons_self hx
      rw [modifyFirst, if_pos hx, modifyFirst, if_pos hchanged, modifyFirst, if_pos hx]
    · have hother := hq x List.mem_cons_self
      rw [modifyFirst, if_neg hx, modifyFirst, if_neg hother, hrest, modifyFirst, if_neg hx]

theorem map_modifyFirst_again : (modifyFirst p f xs).map (fun x ↦ if q x then g x else x) =
    modifyFirst p (fun x ↦ g (f x)) xs := by
  induction xs with
  | nil => rfl
  | cons x xs ih =>
    have hothers : ∀ y ∈ xs, ¬ q y := fun y hy ↦ hq y (List.mem_cons_of_mem x hy)
    have hrest := ih hothers fun y hy ↦ hf y (List.mem_cons_of_mem x hy)
    by_cases hx : p x
    · have hkept : xs.map (fun y ↦ if q y then g y else y) = xs.map id :=
        List.map_congr_left fun y hy ↦ if_neg (hothers y hy)
      rw [modifyFirst, if_pos hx, List.map_cons, if_pos (hf x List.mem_cons_self hx), hkept,
        List.map_id, modifyFirst, if_pos hx]
    · rw [modifyFirst, if_neg hx, List.map_cons, if_neg (hq x List.mem_cons_self), hrest,
        modifyFirst, if_neg hx]

end ChangedAgain

/-- Changing what a search passes over is nothing to it. -/
theorem find?_modifyFirst_of_forall {q : α → Bool} (hp : ∀ x, p x → ¬ q x)
    (hf : ∀ x, p x → ¬ q (f x)) : (modifyFirst p f xs).find? q = xs.find? q := by
  induction xs with
  | nil => rfl
  | cons x xs ih =>
    rw [modifyFirst]
    split
    next hx => rw [List.find?_cons_of_neg (hf x hx), List.find?_cons_of_neg (hp x hx)]
    next hx => rw [List.find?_cons, List.find?_cons, ih]

/-- What is changed within a part of a list is changed in the part alone. -/
theorem filter_modifyFirst {q : α → Bool} (hp : ∀ x, p x → q x) (hf : ∀ x, p x → q (f x)) :
    (modifyFirst p f xs).filter q = modifyFirst p f (xs.filter q) := by
  induction xs with
  | nil => rfl
  | cons x xs ih =>
    by_cases hx : p x
    · rw [modifyFirst, if_pos hx, List.filter_cons_of_pos (hf x hx),
        List.filter_cons_of_pos (hp x hx), modifyFirst, if_pos hx]
    · rw [modifyFirst, if_neg hx, List.filter_cons, List.filter_cons]
      split
      next => rw [modifyFirst, if_neg hx, ih]
      next => exact ih

theorem filter_modifyFirst_of_forall {q : α → Bool} (hp : ∀ x, p x → ¬ q x)
    (hf : ∀ x, p x → ¬ q (f x)) : (modifyFirst p f xs).filter q = xs.filter q := by
  induction xs with
  | nil => rfl
  | cons x xs ih =>
    by_cases hx : p x
    · rw [modifyFirst, if_pos hx, List.filter_cons_of_neg (hf x hx),
        List.filter_cons_of_neg (hp x hx)]
    · rw [modifyFirst, if_neg hx, List.filter_cons, List.filter_cons, ih]

theorem filter_eraseP {q : α → Bool} (hp : ∀ x, p x → q x) :
    (xs.eraseP p).filter q = (xs.filter q).eraseP p := by
  induction xs with
  | nil => rfl
  | cons x xs ih =>
    by_cases hx : p x
    · rw [List.eraseP_cons_of_pos hx, List.filter_cons_of_pos (hp x hx), List.eraseP_cons_of_pos hx]
    · rw [List.eraseP_cons_of_neg hx, List.filter_cons, List.filter_cons]
      split
      next => rw [List.eraseP_cons_of_neg hx, ih]
      next => exact ih

theorem filter_eraseP_of_forall {q : α → Bool} (hp : ∀ x, p x → ¬ q x) :
    (xs.eraseP p).filter q = xs.filter q := by
  induction xs with
  | nil => rfl
  | cons x xs ih =>
    by_cases hx : p x
    · rw [List.eraseP_cons_of_pos hx, List.filter_cons_of_neg (hp x hx)]
    · rw [List.eraseP_cons_of_neg hx, List.filter_cons, List.filter_cons, ih]

/-- Erasing the only element with a property leaves none. -/
theorem not_of_mem_eraseP {q : α → Bool} (hpq : ∀ z, p z → q z) (hxs : xs.filter q = [x])
    (hx : p x) (hy : y ∈ xs.eraseP p) : ¬ q y := by
  have hnone : (xs.eraseP p).filter q = [] := by
    rw [filter_eraseP hpq, hxs, List.eraseP_cons_of_pos hx]
  exact List.filter_eq_nil_iff.mp hnone y hy

theorem find?_filter_of_forall {q : α → Bool} (hp : ∀ x, p x → q x) :
    (xs.filter q).find? p = xs.find? p := by
  rw [List.find?_filter]
  refine List.find?_congr fun x _ ↦ ?_
  by_cases hx : p x
  · simp [hx, hp x hx]
  · simp [hx]

/-- The only element with a property is the first with a stronger one that it has. -/
theorem find?_of_filter_eq_singleton {q : α → Bool} (hpq : ∀ z, p z → q z)
    (hxs : xs.filter q = [x]) (hx : p x) : xs.find? p = some x := by
  rw [← find?_filter_of_forall hpq, hxs, List.find?_cons_of_pos hx]

theorem any_filter_of_forall {q : α → Bool} (hp : ∀ x, p x → q x) :
    (xs.filter q).any p = xs.any p := by
  rw [List.any_filter]
  refine congrArg xs.any (funext fun x ↦ ?_)
  by_cases hx : p x
  · simp [hx, hp x hx]
  · simp [hx]

theorem filter_filter_of_forall {q : α → Bool} (hp : ∀ x, p x → q x) :
    (xs.filter q).filter p = xs.filter p := by
  rw [List.filter_filter]
  refine List.filter_congr fun x _ ↦ ?_
  by_cases hx : p x
  · simp [hx, hp x hx]
  · simp [hx]

theorem filter_append_of_forall {ys : List α} (h : ∀ y ∈ ys, p y) :
    (xs ++ ys).filter p = xs.filter p ++ ys := by
  rw [List.filter_append, List.filter_eq_self.mpr h]

theorem filter_append_of_forall_not {ys : List α} (h : ∀ y ∈ ys, ¬ p y) :
    (xs ++ ys).filter p = xs.filter p := by
  rw [List.filter_append, List.filter_eq_nil_iff.mpr h, List.append_nil]

/-- With a key that tells the elements apart, the first element with a key is the only one. -/
theorem modifyFirst_key_eq_map [DecidableEq κ] {key : α → κ} (hkeys : (xs.map key).Nodup) (k : κ) :
    modifyFirst (fun x ↦ key x = k) f xs = xs.map fun x ↦ if key x = k then f x else x := by
  induction xs with
  | nil => rfl
  | cons x xs ih =>
    obtain ⟨hx, hxs⟩ := List.nodup_cons.mp hkeys
    by_cases hk : key x = k
    · have hrest : xs.map (fun y ↦ if key y = k then f y else y) = xs.map id := by
        refine List.map_congr_left fun y hy ↦ ?_
        have hyk : key y ≠ k := fun hyk ↦ hx (List.mem_map.mpr ⟨y, hy, hyk.trans hk.symm⟩)
        rw [if_neg hyk, id_eq]
      simp [modifyFirst, hk, hrest]
    · simp [modifyFirst, hk, ih hxs]

/-- With a key that tells the elements apart, the first element with a property can be found by its
key as well. -/
theorem modifyFirst_eq_modifyFirst_key [DecidableEq κ] {key : α → κ}
    (hkeys : (xs.map key).Nodup) (hx : xs.find? p = some x) :
    modifyFirst p f xs = modifyFirst (fun y ↦ key y = key x) f xs := by
  induction xs with
  | nil => rfl
  | cons y ys ih =>
    obtain ⟨hy, hys⟩ := List.nodup_cons.mp hkeys
    rw [List.find?_cons] at hx
    by_cases hp : p y
    · obtain rfl : y = x := by simpa [hp] using hx
      rw [modifyFirst, if_pos hp, modifyFirst, if_pos (by simp)]
    · have hfound : ys.find? p = some x := by simpa [hp] using hx
      have hne : key y ≠ key x := fun hsame ↦
        hy (hsame ▸ List.mem_map_of_mem (List.mem_of_find?_eq_some hfound))
      rw [modifyFirst, if_neg hp, modifyFirst, if_neg (by simpa using hne), ih hys hfound]

/-- Of several elements with a property only the first is changed, and not the later ones. -/
theorem modifyFirst_eq_map [DecidableEq α] (h : xs.Nodup) : modifyFirst p f xs =
    xs.map fun x ↦ if x ∈ (xs.filter p).tail then x else if p x then f x else x := by
  induction xs with
  | nil => rfl
  | cons x xs ih =>
    obtain ⟨hx, hxs⟩ := List.nodup_cons.mp h
    by_cases hp : p x
    · have hlater : xs.map (fun y ↦ if y ∈ xs.filter p then y else if p y then f y else y) =
          xs.map id := by
        refine List.map_congr_left fun y hy ↦ ?_
        by_cases hpy : p y
        · rw [if_pos (List.mem_filter.mpr ⟨hy, hpy⟩), id_eq]
        · rw [if_neg fun hmem ↦ hpy (List.mem_filter.mp hmem).2, if_neg hpy, id_eq]
      have hfirst : x ∉ xs.filter p := fun hmem ↦ hx (List.mem_filter.mp hmem).1
      rw [modifyFirst, if_pos hp, List.filter_cons_of_pos hp, List.tail_cons, List.map_cons,
        if_neg hfirst, if_pos hp, hlater, List.map_id]
    · have hother : x ∉ (xs.filter p).tail := fun hmem ↦
        hx (List.mem_filter.mp (List.mem_of_mem_tail hmem)).1
      rw [modifyFirst, if_neg hp, List.filter_cons_of_neg hp, List.map_cons, if_neg hother,
        if_neg hp, ih hxs]

/-- Where no two elements have a property, erasing the first with it erases all. -/
theorem eraseP_eq_filter_not (h : xs.Pairwise fun x y ↦ p x → ¬ p y) :
    xs.eraseP p = xs.filter fun x ↦ !p x := by
  induction xs with
  | nil => rfl
  | cons x xs ih =>
    obtain ⟨hx, hxs⟩ := List.pairwise_cons.mp h
    by_cases hp : p x
    · have hkept : xs.filter (fun y ↦ !p y) = xs :=
        List.filter_eq_self.mpr fun y hy ↦ by simpa using hx y hy hp
      rw [List.eraseP_cons_of_pos hp, List.filter_cons_of_neg (by simpa using hp), hkept]
    · rw [List.eraseP_cons_of_neg hp, List.filter_cons_of_pos (by simpa using hp), ih hxs]

/-- With a key that tells the elements apart, erasing the first element with a key erases all. -/
theorem eraseP_key_eq_filter [DecidableEq κ] {key : α → κ} (hkeys : (xs.map key).Nodup) (k : κ) :
    xs.eraseP (fun x ↦ key x = k) = xs.filter fun x ↦ key x ≠ k := by
  have hpairs : xs.Pairwise fun x y ↦ decide (key x = k) → ¬ decide (key y = k) := by
    refine (List.pairwise_map.mp hkeys).imp fun hne hx hy ↦ ?_
    exact hne ((of_decide_eq_true hx).trans (of_decide_eq_true hy).symm)
  rw [eraseP_eq_filter_not hpairs]
  exact List.filter_congr fun x _ ↦ by simp

/-- With a key that tells the elements apart, no other element has the key of one. -/
theorem key_ne_of_mem_filter_not {key : α → κ} (hkeys : (xs.map key).Nodup) (hx : x ∈ xs)
    (hp : p x) (hy : y ∈ xs.filter fun z ↦ !p z) : key y ≠ key x := by
  intro hsame
  obtain ⟨hmem, hnot⟩ := List.mem_filter.mp hy
  rw [List.inj_on_of_nodup_map hkeys hmem hx hsame, hp] at hnot
  nomatch hnot

theorem nodup_map_append_singleton {key : α → κ} :
    ((xs ++ [x]).map key).Nodup ↔ (xs.map key).Nodup ∧ ∀ y ∈ xs, key y ≠ key x := by
  simp [List.nodup_append]

/-- A list has one first element with a property. -/
theorem eq_of_first {P : α → Prop} {before after before' after' : List α}
    (h : before ++ x :: after = before' ++ y :: after') (hbefore : ∀ z ∈ before, ¬ P z)
    (hbefore' : ∀ z ∈ before', ¬ P z) (hx : P x) (hy : P y) : x = y := by
  rcases List.append_eq_append_iff.mp h with ⟨between, rfl, hsplit⟩ | ⟨between, rfl, hsplit⟩
  · cases between with
    | nil => exact (List.cons.inj hsplit).1
    | cons z zs =>
      obtain rfl := (List.cons.inj hsplit).1
      exact absurd hx (hbefore' x (by simp))
  · cases between with
    | nil => exact (List.cons.inj hsplit).1.symm
    | cons z zs =>
      obtain rfl := (List.cons.inj hsplit).1
      exact absurd hy (hbefore y (by simp))

theorem perm_cons_eraseP (h : xs.find? p = some x) : xs.Perm (x :: xs.eraseP p) := by
  obtain ⟨hx, before, later, rfl, hbefore⟩ := List.find?_eq_some_iff_append.mp h
  have hnone : ∀ y ∈ before, ¬ p y := by simpa using hbefore
  rw [List.eraseP_append_right _ hnone, List.eraseP_cons_of_pos hx]
  exact List.perm_middle

/-- Where an element moves from one list to another and keeps its key, the keys stay the same. -/
theorem perm_of_moved {p : α → Bool} {key : α → κ} {key' : β → κ} {ys : List β} {z : β}
    (hx : xs.find? p = some x) (hkey : key' z = key x) :
    ((xs.eraseP p).map key ++ (ys ++ [z]).map key').Perm (xs.map key ++ ys.map key') := by
  have hkeys : (key x :: (xs.eraseP p).map key).Perm (xs.map key) :=
    ((perm_cons_eraseP hx).map key).symm
  rw [List.map_append, List.map_singleton, hkey, ← List.append_assoc]
  exact (List.perm_append_singleton _ _).trans (hkeys.append_right _)

theorem modifyFirst_perm (h : xs.find? p = some x) :
    (modifyFirst p f xs).Perm (f x :: xs.eraseP p) := by
  induction xs with
  | nil => simp at h
  | cons y ys ih =>
    rw [List.find?_cons] at h
    by_cases hy : p y
    · obtain rfl : y = x := by simpa [hy] using h
      rw [modifyFirst, if_pos hy, List.eraseP_cons_of_pos hy]
    · have hys : ys.find? p = some x := by simpa [hy] using h
      rw [modifyFirst, if_neg hy, List.eraseP_cons_of_neg hy]
      exact ((ih hys).cons y).trans (List.Perm.swap _ _ _)

theorem nodup_eraseDups [DecidableEq α] (xs : List α) : xs.eraseDups.Nodup := by
  induction hlength : xs.length using Nat.strongRecOn generalizing xs with
  | _ n ih =>
    cases xs with
    | nil => exact List.nodup_nil
    | cons x xs =>
      rw [List.eraseDups_cons]
      have hshorter : (xs.filter fun y ↦ !y == x).length < n :=
        hlength ▸ Nat.lt_succ_of_le (List.length_filter_le _ xs)
      refine List.nodup_cons.mpr ⟨fun hx ↦ ?_, ih _ hshorter _ rfl⟩
      simpa using (List.mem_filter.mp (List.mem_eraseDups.mp hx)).2

theorem eraseDups_concat [DecidableEq α] :
    (xs ++ [x]).eraseDups = if x ∈ xs then xs.eraseDups else xs.eraseDups ++ [x] := by
  rw [List.eraseDups_append]
  by_cases hx : x ∈ xs
  · simp [List.removeAll, hx]
  · simp [List.removeAll, hx, List.eraseDups_cons]

theorem eraseDups_perm [DecidableEq α] {ys : List α} (h : xs.Perm ys) :
    xs.eraseDups.Perm ys.eraseDups :=
  (List.perm_ext_iff_of_nodup (nodup_eraseDups xs) (nodup_eraseDups ys)).mpr fun x ↦ by
    rw [List.mem_eraseDups, List.mem_eraseDups, h.mem_iff]

end GuidedTours
