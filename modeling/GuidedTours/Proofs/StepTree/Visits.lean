import GuidedTours.Proofs.StepTree.Reach
import GuidedTours.StepTree.Outline
import Mathlib.Logic.Function.Iterate

/-!
What the walk from the root visits. The levels of the walk are the steps of one depth each, with
the segment in force there, so the walk visits exactly the rooted steps. It goes through as many
levels as there are steps, and no step lies deeper.
-/

set_option autoImplicit false

namespace GuidedTours

namespace StepTree

variable {steps : List Step} {s top : Step} {v : Visit}

/-- The ids are distinct, and one step alone has no parent. -/
structure HasRoot (steps : List Step) (top : Step) : Prop where
  distinct : (steps.map Step.id).Nodup
  parentless : steps.filter (·.parent?.isNone) = [top]

theorem HasRoot.mem_iff (h : HasRoot steps top) : s ∈ steps ∧ s.parent? = none ↔ s = top := by
  have hmem : s ∈ steps.filter (·.parent?.isNone) ↔ s = top := by
    rw [h.parentless, List.mem_singleton]
  simpa using hmem

theorem HasRoot.mem (h : HasRoot steps top) : top ∈ steps := (h.mem_iff.mpr rfl).1

theorem HasRoot.parent (h : HasRoot steps top) : top.parent? = none := (h.mem_iff.mpr rfl).2

theorem HasRoot.ne_nil (h : HasRoot steps top) : steps ≠ [] := by
  rintro rfl
  exact List.not_mem_nil h.mem

theorem HasRoot.rooted (h : HasRoot steps top) : Rooted steps top := .root h.mem h.parent

theorem mem_descend {level : List Visit} {n : Nat} :
    v ∈ descend steps n level ↔ ∃ k < n, v ∈ (nextLevel steps)^[k] level := by
  induction n generalizing level with
  | zero => simp [descend]
  | succ n ih =>
    rw [descend, List.mem_append, ih]
    constructor
    · intro hv
      rcases hv with h | ⟨k, hk, h⟩
      · exact ⟨0, Nat.zero_lt_succ n, h⟩
      · exact ⟨k + 1, Nat.succ_lt_succ hk, h⟩
    · intro hv
      obtain ⟨k, hk, h⟩ := hv
      cases k with
      | zero => exact .inl h
      | succ k => exact .inr ⟨k, Nat.lt_of_succ_lt_succ hk, h⟩

theorem mem_nextLevel {level : List Visit} :
    v ∈ nextLevel steps level ↔ ∃ s ∈ steps, ∃ u, level.find? (fun u ↦ s.parent? = some u.id) =
      some u ∧ v = ⟨s.id, s.segment?.or u.segment⟩ := by
  simp only [nextLevel, List.mem_filterMap, Option.map_eq_some_iff, eq_comm (a := v)]

/-- A level of the walk holds the steps of one depth. -/
theorem mem_level (h : HasRoot steps top) {k : Nat} :
    v ∈ (nextLevel steps)^[k] [⟨top.id, top.segment?⟩] ↔
      ∃ s, AtDepth steps k s ∧ InForce steps s v.segment ∧ s.id = v.id := by
  induction k generalizing v with
  | zero =>
    constructor
    · intro hv
      rw [List.mem_singleton.mp hv]
      exact ⟨top, .root h.mem h.parent, .root h.mem h.parent, rfl⟩
    · intro hstep
      obtain ⟨s, hdepth, hforce, hid⟩ := hstep
      cases hdepth with
      | root hs hparent =>
        obtain rfl : s = top := h.mem_iff.mp ⟨hs, hparent⟩
        have hsegment := hforce.unique h.distinct (.root hs hparent)
        exact List.mem_singleton.mpr (by cases v; simp_all)
  | succ k ih =>
    rw [Function.iterate_succ_apply', mem_nextLevel]
    constructor
    · intro hv
      obtain ⟨s, hs, u, hfind, rfl⟩ := hv
      obtain ⟨p, hdepth, hforce, hid⟩ := ih.mp (List.mem_of_find?_eq_some hfind)
      have hparent : s.parent? = some p.id := by
        simpa [hid] using List.find?_some hfind
      exact ⟨s, .under hs hparent hdepth, .under hs hparent hforce, rfl⟩
    · intro hstep
      obtain ⟨s, hdepth, hforce, hid⟩ := hstep
      cases hdepth with
      | @under _ _ p hs hparent hdepth =>
        obtain ⟨segment, hsegment⟩ := hdepth.rooted.exists_inForce
        have hup : ⟨p.id, segment⟩ ∈ (nextLevel steps)^[k] [⟨top.id, top.segment?⟩] :=
          ih.mpr ⟨p, hdepth, hsegment, rfl⟩
        have hsome : (((nextLevel steps)^[k] [⟨top.id, top.segment?⟩]).find?
            fun u ↦ s.parent? = some u.id).isSome :=
          List.find?_isSome.mpr ⟨_, hup, by simpa using hparent⟩
        obtain ⟨u, hu⟩ := Option.isSome_iff_exists.mp hsome
        refine ⟨s, hs, u, hu, ?_⟩
        have hpu : p.id = u.id := by simpa [hparent] using List.find?_some hu
        obtain ⟨q, hqdepth, hqforce, hq⟩ := ih.mp (List.mem_of_find?_eq_some hu)
        have hqp : q = p := eq_of_id_eq h.distinct hqdepth.mem hdepth.mem (hq.trans hpu.symm)
        have hsame := hforce.unique h.distinct (.under hs hparent (hqp ▸ hqforce))
        cases v
        simp_all

/-- The walk visits the rooted steps, each with the segment in force there. -/
theorem mem_visitsFrom (h : HasRoot steps top) :
    v ∈ visitsFrom steps top ↔ ∃ s, InForce steps s v.segment ∧ s.id = v.id := by
  rw [visitsFrom, mem_descend]
  constructor
  · intro hv
    obtain ⟨k, -, hv⟩ := hv
    obtain ⟨s, -, hforce, hid⟩ := (mem_level h).mp hv
    exact ⟨s, hforce, hid⟩
  · intro hstep
    obtain ⟨s, hforce, hid⟩ := hstep
    obtain ⟨k, hdepth⟩ := hforce.rooted.exists_atDepth
    exact ⟨k, hdepth.lt_length h.distinct, (mem_level h).mpr ⟨s, hdepth, hforce, hid⟩⟩

theorem any_visitsFrom_iff (h : HasRoot steps top) {id : String} :
    (visitsFrom steps top).any (·.id = id) ↔ ∃ s, Rooted steps s ∧ s.id = id := by
  simp only [List.any_eq_true, decide_eq_true_eq, mem_visitsFrom h]
  constructor
  · intro hvisited
    obtain ⟨v, ⟨s, hforce, hid⟩, rfl⟩ := hvisited
    exact ⟨s, hforce.rooted, hid⟩
  · intro hstep
    obtain ⟨s, hrooted, rfl⟩ := hstep
    obtain ⟨segment, hforce⟩ := hrooted.exists_inForce
    exact ⟨⟨s.id, segment⟩, ⟨s, hforce, rfl⟩, rfl⟩

theorem SameLinks.any_visitsFrom {steps' : List Step} {top' : Step} (h : SameLinks steps steps')
    (htop : HasRoot steps top) (htop' : HasRoot steps' top') (id : String) :
    (visitsFrom steps top).any (·.id = id) = (visitsFrom steps' top').any (·.id = id) := by
  rw [Bool.eq_iff_iff, any_visitsFrom_iff htop, any_visitsFrom_iff htop', h.exists_rooted_iff]

theorem any_visitsFrom_id_iff (h : HasRoot steps top) (hs : s ∈ steps) :
    (visitsFrom steps top).any (·.id = s.id) ↔ Rooted steps s := by
  rw [any_visitsFrom_iff h]
  constructor
  · intro hother
    obtain ⟨t, hrooted, hid⟩ := hother
    exact eq_of_id_eq h.distinct hrooted.mem hs hid ▸ hrooted
  · intro hrooted
    exact ⟨s, hrooted, rfl⟩

/-- What a step inherits: the segment in force at it, if the walk visits it. -/
theorem inherited_eq_iff (h : HasRoot steps top) (hs : s ∈ steps) {name : String} :
    ((visitsFrom steps top).find? (·.id = s.id)).bind Visit.segment = some name ↔
      InForce steps s (some name) := by
  constructor
  · intro hname
    obtain ⟨v, hfind, hsegment⟩ := Option.bind_eq_some_iff.mp hname
    obtain ⟨t, hforce, hid⟩ := (mem_visitsFrom h).mp (List.mem_of_find?_eq_some hfind)
    have hv : v.id = s.id := by simpa using List.find?_some hfind
    have hts : t = s := eq_of_id_eq h.distinct hforce.mem hs (hid.trans hv)
    exact hsegment ▸ hts ▸ hforce
  · intro hforce
    have hvisit : ⟨s.id, some name⟩ ∈ visitsFrom steps top :=
      (mem_visitsFrom h).mpr ⟨s, hforce, rfl⟩
    have hsome : ((visitsFrom steps top).find? (·.id = s.id)).isSome :=
      List.find?_isSome.mpr ⟨_, hvisit, by simp⟩
    obtain ⟨v, hfind⟩ := Option.isSome_iff_exists.mp hsome
    obtain ⟨t, htforce, hid⟩ := (mem_visitsFrom h).mp (List.mem_of_find?_eq_some hfind)
    have hv : v.id = s.id := by simpa using List.find?_some hfind
    have hts : t = s := eq_of_id_eq h.distinct htforce.mem hs (hid.trans hv)
    rw [hfind]
    exact (hts ▸ htforce).unique h.distinct hforce

theorem inherited_eq_none_iff (h : HasRoot steps top) (hs : s ∈ steps) :
    ((visitsFrom steps top).find? (·.id = s.id)).bind Visit.segment = none ↔
      ∀ name, ¬ InForce steps s (some name) := by
  rw [Option.eq_none_iff_forall_ne_some]
  exact forall_congr' fun _ ↦ not_congr (inherited_eq_iff h hs)

end StepTree

end GuidedTours
