import GuidedTours.Proofs.StepTree.Reach

/-!
The bounded way up is exact. A way up that meets an id twice can be cut short, and one that meets
no id twice is not longer than the list of steps, so the bound on the number of ids loses nothing.
Nothing is assumed of the list. The bound cannot be lowered either: the way up a ladder, a list in
which each step names the next id and the last one an id that no step has, meets one id more than
there are steps.
-/

set_option autoImplicit false

namespace GuidedTours

namespace StepTree

variable {steps : List Step} {ancestor id parent : String} {path : List String}

/-- The way up from an id to another one, as the list of the ids before the other one. -/
inductive Way (steps : List Step) (ancestor : String) : String → List String → Prop
  | here : Way steps ancestor ancestor []
  | up {id parent : String} {path : List String} (hparent : parentOf steps id = some parent)
      (h : Way steps ancestor parent path) : Way steps ancestor id (id :: path)

theorem parentOf_of_mem {s : Step} (distinct : (steps.map Step.id).Nodup) (hs : s ∈ steps) :
    parentOf steps s.id = s.parent? := by
  rw [parentOf, find?_of_mem distinct hs, Option.bind_some]

theorem exists_mem_of_parentOf (h : parentOf steps id = some parent) :
    ∃ s ∈ steps, s.id = id ∧ s.parent? = some parent := by
  obtain ⟨s, hfind, hparent⟩ := Option.bind_eq_some_iff.mp h
  exact ⟨s, List.mem_of_find?_eq_some hfind, by simpa using List.find?_some hfind, hparent⟩

theorem parentOf_of_forall_ne (h : ∀ s ∈ steps, s.id ≠ id) : parentOf steps id = none := by
  rw [parentOf, find?_eq_none_iff.mpr h, Option.bind_none]

theorem mem_ids_of_parentOf (h : parentOf steps id = some parent) : id ∈ steps.map Step.id := by
  obtain ⟨s, hs, rfl, -⟩ := exists_mem_of_parentOf h
  exact List.mem_map_of_mem hs

theorem Way.subset (h : Way steps ancestor id path) : path ⊆ steps.map Step.id := by
  induction h with
  | here => exact List.nil_subset _
  | up hparent _ ih => exact List.cons_subset.mpr ⟨mem_ids_of_parentOf hparent, ih⟩

/-- At each id that it meets a way falls into two: the way to the id and the way from it. -/
theorem Way.split (h : Way steps ancestor id path) {other : String} (hother : other ∈ path) :
    ∃ front rest, path = front ++ other :: rest ∧ Way steps other id front ∧
      Way steps ancestor other (other :: rest) := by
  induction h with
  | here => exact absurd hother List.not_mem_nil
  | @up id parent path hparent h ih =>
    rcases List.mem_cons.mp hother with rfl | hother
    · exact ⟨[], path, rfl, .here, .up hparent h⟩
    · obtain ⟨front, rest, rfl, hfront, hrest⟩ := ih hother
      exact ⟨id :: front, rest, rfl, .up hparent hfront, hrest⟩

theorem Way.trans {middle : String} {rest : List String} (h : Way steps middle id path)
    (hrest : Way steps ancestor middle rest) : Way steps ancestor id (path ++ rest) := by
  induction h with
  | here => exact hrest
  | up hparent _ ih => exact .up hparent ih

theorem Way.exists_nodup (h : Way steps ancestor id path) :
    ∃ short, short.Nodup ∧ Way steps ancestor id short := by
  induction h with
  | here => exact ⟨[], List.nodup_nil, .here⟩
  | @up id parent path hparent h ih =>
    obtain ⟨short, hnodup, hway⟩ := ih
    by_cases hid : id ∈ short
    · obtain ⟨front, rest, rfl, -, hway⟩ := hway.split hid
      exact ⟨id :: rest, hnodup.sublist (List.sublist_append_right _ _), hway⟩
    · exact ⟨id :: short, List.nodup_cons.mpr ⟨hid, hnodup⟩, .up hparent hway⟩

theorem mem_chain_iff {n : Nat} :
    ancestor ∈ chain steps n id ↔ ∃ path, path.length < n ∧ Way steps ancestor id path := by
  induction n generalizing id with
  | zero => simp [chain]
  | succ n ih =>
    rw [chain]
    cases hparent : parentOf steps id with
    | none =>
      rw [List.mem_singleton]
      constructor
      · rintro rfl
        exact ⟨[], Nat.zero_lt_succ n, .here⟩
      · intro hpath
        obtain ⟨path, -, hway⟩ := hpath
        cases hway with
        | here => rfl
        | up hsome => simp [hparent] at hsome
    | some parent =>
      rw [List.mem_cons, ih]
      constructor
      · intro hancestor
        rcases hancestor with rfl | ⟨path, hlength, hway⟩
        · exact ⟨[], Nat.zero_lt_succ n, .here⟩
        · exact ⟨id :: path, Nat.succ_lt_succ hlength, .up hparent hway⟩
      · intro hpath
        obtain ⟨path, hlength, hway⟩ := hpath
        cases hway with
        | here => exact .inl rfl
        | up hsome hway =>
          rw [hparent, Option.some_inj] at hsome
          subst hsome
          exact .inr ⟨_, Nat.lt_of_succ_lt_succ hlength, hway⟩

theorem isAncestor_iff_exists_way :
    isAncestor steps ancestor id ↔ ∃ path, Way steps ancestor id path := by
  rw [isAncestor, List.contains_iff_mem, mem_chain_iff]
  constructor
  · intro hpath
    obtain ⟨path, -, hway⟩ := hpath
    exact ⟨path, hway⟩
  · intro hpath
    obtain ⟨path, hway⟩ := hpath
    obtain ⟨short, hnodup, hshort⟩ := hway.exists_nodup
    have hle := (hnodup.subperm hshort.subset).length_le
    rw [List.length_map] at hle
    exact ⟨short, Nat.lt_succ_of_le hle, hshort⟩

theorem isAncestor_self : isAncestor steps id id :=
  isAncestor_iff_exists_way.mpr ⟨[], .here⟩

/-- The ancestors of a step with a parent are the step itself and those of the parent. -/
theorem isAncestor_of_parentOf (hparent : parentOf steps id = some parent) :
    isAncestor steps ancestor id ↔ id = ancestor ∨ isAncestor steps ancestor parent := by
  rw [isAncestor_iff_exists_way, isAncestor_iff_exists_way]
  constructor
  · intro hpath
    obtain ⟨path, hway⟩ := hpath
    cases hway with
    | here => exact .inl rfl
    | up hsome hway =>
      rw [hparent, Option.some_inj] at hsome
      exact .inr ⟨_, hsome ▸ hway⟩
  · intro hpath
    rcases hpath with rfl | ⟨path, hway⟩
    · exact ⟨[], .here⟩
    · exact ⟨id :: path, .up hparent hway⟩

theorem isAncestor_of_no_parent (hnone : parentOf steps id = none) :
    isAncestor steps ancestor id ↔ id = ancestor := by
  rw [isAncestor_iff_exists_way]
  constructor
  · intro hpath
    obtain ⟨path, hway⟩ := hpath
    cases hway with
    | here => rfl
    | up hsome => simp [hnone] at hsome
  · rintro rfl
    exact ⟨[], .here⟩

/-! ### Climbing without a bound -/

/-- The id that lies so many parents above an id. -/
def climb (steps : List Step) : Nat → String → Option String
  | 0, id => some id
  | n + 1, id => (parentOf steps id).bind (climb steps n)

theorem climb_eq_some_iff {n : Nat} :
    climb steps n id = some ancestor ↔ ∃ path, path.length = n ∧ Way steps ancestor id path := by
  induction n generalizing id with
  | zero =>
    rw [climb, Option.some_inj]
    constructor
    · rintro rfl
      exact ⟨[], rfl, .here⟩
    · intro hpath
      obtain ⟨path, hlength, hway⟩ := hpath
      cases hway with
      | here => rfl
      | up => simp at hlength
  | succ n ih =>
    rw [climb, Option.bind_eq_some_iff]
    constructor
    · intro hclimb
      obtain ⟨parent, hparent, hclimb⟩ := hclimb
      obtain ⟨path, rfl, hway⟩ := ih.mp hclimb
      exact ⟨id :: path, rfl, .up hparent hway⟩
    · intro hpath
      obtain ⟨path, hlength, hway⟩ := hpath
      cases hway with
      | here => simp at hlength
      | up hparent hway => exact ⟨_, hparent, ih.mpr ⟨_, Nat.succ_inj.mp hlength, hway⟩⟩

theorem isAncestor_iff_exists_climb :
    isAncestor steps ancestor id ↔ ∃ n, climb steps n id = some ancestor := by
  rw [isAncestor_iff_exists_way]
  constructor
  · intro hpath
    obtain ⟨path, hway⟩ := hpath
    exact ⟨path.length, climb_eq_some_iff.mpr ⟨path, rfl, hway⟩⟩
  · intro hclimb
    obtain ⟨n, hclimb⟩ := hclimb
    obtain ⟨path, -, hway⟩ := climb_eq_some_iff.mp hclimb
    exact ⟨path, hway⟩

theorem mem_chain_of_isAncestor (h : isAncestor steps ancestor id) {n : Nat}
    (hn : steps.length < n) : ancestor ∈ chain steps n id := by
  rw [isAncestor, List.contains_iff_mem, mem_chain_iff] at h
  obtain ⟨path, hlength, hway⟩ := h
  exact mem_chain_iff.mpr ⟨path, by omega, hway⟩

/-- The answer of the bounded walk is that of the unbounded one, and a longer walk would not have
found more. -/
theorem bounded_walk_exact (steps : List Step) (ancestor id : String) :
    (isAncestor steps ancestor id = true ↔ ∃ n, climb steps n id = some ancestor) ∧
      ∀ more, (chain steps (steps.length + 1 + more) id).contains ancestor =
        isAncestor steps ancestor id := by
  refine ⟨isAncestor_iff_exists_climb, fun more ↦ ?_⟩
  rw [Bool.eq_iff_iff, List.contains_iff_mem]
  constructor
  · intro hmem
    obtain ⟨path, -, hway⟩ := mem_chain_iff.mp hmem
    exact isAncestor_iff_exists_way.mpr ⟨path, hway⟩
  · intro hancestor
    exact mem_chain_of_isAncestor hancestor (by omega)

/-! ### The longest way -/

/-- Ids that are all different, one for each number. -/
def rung (k : Nat) : String :=
  String.ofList (List.replicate (k + 1) 'r')

/-- Steps each of which names the id of the next one; no step has the last of these ids. -/
def ladder (length : Nat) : List Step :=
  (List.range length).map fun k ↦ { id := rung k, parentId := some (rung (k + 1)) }

theorem rung_injective {j k : Nat} (h : rung j = rung k) : j = k := by
  have hlength := congrArg List.length (String.ofList_injective h)
  simpa using hlength

theorem rung_ne_empty (k : Nat) : rung k ≠ "" := by
  intro h
  have hlength := congrArg (fun text ↦ text.toList.length) h
  simp [rung] at hlength

theorem parentOf_ladder {length k : Nat} (hk : k < length) :
    parentOf (ladder length) (rung k) = some (rung (k + 1)) := by
  have hdistinct : ((ladder length).map Step.id).Nodup := by
    rw [ladder, List.map_map]
    exact List.nodup_range.map fun _ _ h ↦ rung_injective h
  have hmem : { id := rung k, parentId := some (rung (k + 1)) } ∈ ladder length :=
    List.mem_map_of_mem (List.mem_range.mpr hk)
  rw [show rung k = Step.id { id := rung k, parentId := some (rung (k + 1)) } from rfl,
    parentOf_of_mem hdistinct hmem]
  exact named?_eq_some_iff.mpr ⟨rfl, rung_ne_empty _⟩

/-- The rungs of a ladder are met one after the other. -/
theorem climb_ladder {length : Nat} (n k : Nat) (h : k + n ≤ length) :
    climb (ladder length) n (rung k) = some (rung (k + n)) := by
  induction n generalizing k with
  | zero => rfl
  | succ n ih =>
    rw [climb, parentOf_ladder (by omega), Option.bind_some, ih (k + 1) (by omega)]
    congr 2
    omega

/-- For every number of steps there is a list in which an ancestor is met only by a walk over one
id more than there are steps. -/
theorem exists_ancestor_at_bound (length : Nat) :
    ∃ steps ancestor id, steps.length = length ∧ isAncestor steps ancestor id ∧
      ancestor ∉ chain steps length id := by
  refine ⟨ladder length, rung length, rung 0, by simp [ladder], ?_, ?_⟩
  · exact isAncestor_iff_exists_climb.mpr ⟨length, by simpa using climb_ladder length 0 (by omega)⟩
  · intro hmem
    obtain ⟨path, hlength, hway⟩ := mem_chain_iff.mp hmem
    have hclimb := climb_eq_some_iff.mpr ⟨path, rfl, hway⟩
    rw [climb_ladder path.length 0 (by omega), Option.some_inj] at hclimb
    have hequal := rung_injective hclimb
    omega

end StepTree

end GuidedTours
