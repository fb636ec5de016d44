import GuidedTours.StepTree
import Mathlib.Data.List.Nodup
import Mathlib.Data.List.Perm.Subperm

/-!
Reachability in a step list, stated upward: a step is rooted if following parents from it arrives
at a step without one. Nothing is assumed of the list at first. With distinct ids a rooted step has
one depth and one segment in force, and the depth is smaller than the number of steps, because the
steps on the way up are all different. What is rooted depends on the ids and parents alone, not on
the order of the steps.
-/

set_option autoImplicit false

namespace GuidedTours

namespace StepTree

variable {steps : List Step} {s t top : Step}

/-- Following parents from the step arrives at a step without one. -/
inductive Rooted (steps : List Step) : Step → Prop
  | root {s : Step} (hs : s ∈ steps) (hparent : s.parent? = none) : Rooted steps s
  | under {s p : Step} (hs : s ∈ steps) (hparent : s.parent? = some p.id)
      (hp : Rooted steps p) : Rooted steps s

/-- The step lies so many parents below a step without one. -/
inductive AtDepth (steps : List Step) : Nat → Step → Prop
  | root {s : Step} (hs : s ∈ steps) (hparent : s.parent? = none) : AtDepth steps 0 s
  | under {k : Nat} {s p : Step} (hs : s ∈ steps) (hparent : s.parent? = some p.id)
      (hp : AtDepth steps k p) : AtDepth steps (k + 1) s

/-- The segment in force at a rooted step is its own, or else the one in force at its parent. -/
inductive InForce (steps : List Step) : Step → Option String → Prop
  | root {s : Step} (hs : s ∈ steps) (hparent : s.parent? = none) : InForce steps s s.segment?
  | under {s p : Step} {segment : Option String} (hs : s ∈ steps)
      (hparent : s.parent? = some p.id) (hp : InForce steps p segment) :
      InForce steps s (s.segment?.or segment)

theorem Rooted.mem (h : Rooted steps s) : s ∈ steps := by
  cases h <;> assumption

theorem AtDepth.mem {k : Nat} (h : AtDepth steps k s) : s ∈ steps := by
  cases h <;> assumption

theorem InForce.mem {segment : Option String} (h : InForce steps s segment) : s ∈ steps := by
  cases h <;> assumption

theorem AtDepth.rooted {k : Nat} (h : AtDepth steps k s) : Rooted steps s := by
  induction h with
  | root hs hparent => exact .root hs hparent
  | under hs hparent _ ih => exact .under hs hparent ih

theorem Rooted.exists_atDepth (h : Rooted steps s) : ∃ k, AtDepth steps k s := by
  induction h with
  | root hs hparent => exact ⟨0, .root hs hparent⟩
  | under hs hparent _ ih =>
    obtain ⟨k, hk⟩ := ih
    exact ⟨k + 1, .under hs hparent hk⟩

theorem Rooted.exists_inForce (h : Rooted steps s) : ∃ segment, InForce steps s segment := by
  induction h with
  | root hs hparent => exact ⟨_, .root hs hparent⟩
  | under hs hparent _ ih =>
    obtain ⟨segment, hsegment⟩ := ih
    exact ⟨_, .under hs hparent hsegment⟩

theorem InForce.rooted {segment : Option String} (h : InForce steps s segment) :
    Rooted steps s := by
  induction h with
  | root hs hparent => exact .root hs hparent
  | under hs hparent _ ih => exact .under hs hparent ih

theorem eq_of_id_eq (distinct : (steps.map Step.id).Nodup) (hs : s ∈ steps) (ht : t ∈ steps)
    (h : s.id = t.id) : s = t :=
  List.inj_on_of_nodup_map distinct hs ht h

theorem find?_isSome_iff {id : String} :
    (find? steps id).isSome ↔ ∃ s ∈ steps, s.id = id := by
  simp [find?]

theorem find?_eq_none_iff {id : String} : find? steps id = none ↔ ∀ s ∈ steps, s.id ≠ id := by
  simp [find?]

theorem find?_eq_some_iff_of_distinct (distinct : (steps.map Step.id).Nodup) {id : String} :
    find? steps id = some s ↔ s ∈ steps ∧ s.id = id := by
  constructor
  · intro h
    exact ⟨List.mem_of_find?_eq_some h, by simpa using List.find?_some h⟩
  · intro hs
    obtain ⟨hs, rfl⟩ := hs
    have hsome : (find? steps s.id).isSome := find?_isSome_iff.mpr ⟨s, hs, rfl⟩
    obtain ⟨t, ht⟩ := Option.isSome_iff_exists.mp hsome
    have hid : t.id = s.id := by simpa using List.find?_some ht
    rw [ht, eq_of_id_eq distinct (List.mem_of_find?_eq_some ht) hs hid]

theorem find?_of_mem (distinct : (steps.map Step.id).Nodup) (hs : s ∈ steps) :
    find? steps s.id = some s :=
  (find?_eq_some_iff_of_distinct distinct).mpr ⟨hs, rfl⟩

theorem AtDepth.unique (distinct : (steps.map Step.id).Nodup) {j k : Nat}
    (hj : AtDepth steps j s) (hk : AtDepth steps k s) : j = k := by
  induction hj generalizing k with
  | root _ hnone =>
    cases hk with
    | root => rfl
    | under _ hsome => simp [hnone] at hsome
  | under _ hp hdepth ih =>
    cases hk with
    | root _ hnone => simp [hnone] at hp
    | under _ hq hdepth' =>
      have hid := Option.some.inj (hp.symm.trans hq)
      have hsame := eq_of_id_eq distinct hdepth.mem hdepth'.mem hid
      rw [ih (hsame ▸ hdepth')]

theorem InForce.unique (distinct : (steps.map Step.id).Nodup) {a b : Option String}
    (ha : InForce steps s a) (hb : InForce steps s b) : a = b := by
  induction ha generalizing b with
  | root _ hnone =>
    cases hb with
    | root => rfl
    | under _ hsome => simp [hnone] at hsome
  | under _ hp hforce ih =>
    cases hb with
    | root _ hnone => simp [hnone] at hp
    | under _ hq hforce' =>
      have hid := Option.some.inj (hp.symm.trans hq)
      have hsame := eq_of_id_eq distinct hforce.mem hforce'.mem hid
      rw [ih (hsame ▸ hforce')]

/-- A way up from a step meets as many different steps as its depth tells. -/
theorem AtDepth.exists_path (distinct : (steps.map Step.id).Nodup) {k : Nat}
    (h : AtDepth steps k s) : ∃ path : List Step, path.length = k + 1 ∧ path.Nodup ∧
      ∀ p ∈ path, ∃ j ≤ k, AtDepth steps j p := by
  induction h with
  | @root s hs hparent =>
    refine ⟨[s], rfl, List.nodup_singleton s, ?_⟩
    intro p hp
    rw [List.mem_singleton.mp hp]
    exact ⟨0, Nat.le_refl 0, .root hs hparent⟩
  | @under k s p hs hparent hdepth ih =>
    obtain ⟨path, hlength, hnodup, hpath⟩ := ih
    refine ⟨s :: path, by simp [hlength], List.nodup_cons.mpr ⟨?_, hnodup⟩, ?_⟩
    · intro hmem
      obtain ⟨j, hj, hdepth'⟩ := hpath s hmem
      have := hdepth'.unique distinct (.under hs hparent hdepth)
      omega
    · intro q hq
      rcases List.mem_cons.mp hq with rfl | hq
      · exact ⟨k + 1, Nat.le_refl _, .under hs hparent hdepth⟩
      · obtain ⟨j, hj, hdepth'⟩ := hpath q hq
        exact ⟨j, by omega, hdepth'⟩

theorem AtDepth.lt_length (distinct : (steps.map Step.id).Nodup) {k : Nat}
    (h : AtDepth steps k s) : k < steps.length := by
  obtain ⟨path, hlength, hnodup, hpath⟩ := h.exists_path distinct
  have hsubset : path ⊆ steps := fun p hp ↦ by
    obtain ⟨_, _, hdepth⟩ := hpath p hp
    exact hdepth.mem
  have hle := (hnodup.subperm hsubset).length_le
  omega

/-- Each step of either list has one in the other with its id and its parent. -/
structure SameLinks (steps steps' : List Step) : Prop where
  forth : ∀ s ∈ steps, ∃ s' ∈ steps', s'.id = s.id ∧ s'.parent? = s.parent?
  back : ∀ s' ∈ steps', ∃ s ∈ steps, s.id = s'.id ∧ s.parent? = s'.parent?

namespace SameLinks

variable {steps' : List Step}

theorem symm (h : SameLinks steps steps') : SameLinks steps' steps := ⟨h.back, h.forth⟩

theorem map {f : Step → Step} (hid : ∀ s, (f s).id = s.id)
    (hparent : ∀ s, (f s).parent? = s.parent?) : SameLinks steps (steps.map f) where
  forth s hs := ⟨f s, List.mem_map_of_mem hs, hid s, hparent s⟩
  back s' hs' := by
    obtain ⟨s, hs, rfl⟩ := List.mem_map.mp hs'
    exact ⟨s, hs, (hid s).symm, (hparent s).symm⟩

theorem exists_rooted (h : SameLinks steps steps') (hs : Rooted steps s) :
    ∃ s', Rooted steps' s' ∧ s'.id = s.id := by
  induction hs with
  | @root s hs hnone =>
    obtain ⟨s', hs', hid, hparent⟩ := h.forth s hs
    exact ⟨s', .root hs' (hparent.trans hnone), hid⟩
  | @under s p hs hsome _ ih =>
    obtain ⟨p', hp', hpid⟩ := ih
    obtain ⟨s', hs', hid, hparent⟩ := h.forth s hs
    have hsome' : s'.parent? = some p'.id := by rw [hparent, hsome, hpid]
    exact ⟨s', .under hs' hsome' hp', hid⟩

theorem exists_rooted_iff (h : SameLinks steps steps') {id : String} :
    (∃ s, Rooted steps s ∧ s.id = id) ↔ ∃ s', Rooted steps' s' ∧ s'.id = id := by
  constructor
  · intro hrooted
    obtain ⟨s, hs, rfl⟩ := hrooted
    exact h.exists_rooted hs
  · intro hrooted
    obtain ⟨s', hs', rfl⟩ := hrooted
    exact h.symm.exists_rooted hs'

end SameLinks

end StepTree

end GuidedTours
