import GuidedTours.Editor.Update
import GuidedTours.Proofs.Attempts
import GuidedTours.Proofs.StepTree.Ancestor
import GuidedTours.Proofs.StepTree.Edit
import GuidedTours.Proofs.StepTree.Marking

/-!
Forests: step lists with distinct ids in which following parents from any step arrives at a step
without one. There may be several such steps, or none. A list is a forest if its ids can be numbered
so that every parent is a step of the list with a smaller number; each edit has a simple
renumbering, so insertions, moves, and deletions that move all children up lead from forests to
forests. A forest that has an outline is a tree.
-/

set_option autoImplicit false

namespace GuidedTours

namespace StepTree

variable {steps result : List Step} {s top incoming : Step} {id : String}

/-- Every parent is a step of the list, and the numbers grow from parents to children. -/
def Graded (rank : String → Nat) (steps : List Step) : Prop :=
  ∀ s ∈ steps, ∀ p, s.parent? = some p → p ∈ steps.map Step.id ∧ rank p < rank s.id

structure Forest (steps : List Step) : Prop where
  distinct : (steps.map Step.id).Nodup
  graded : ∃ rank, Graded rank steps

theorem Graded.rooted {rank : String → Nat} (h : Graded rank steps) (hs : s ∈ steps) :
    Rooted steps s := by
  generalize hn : rank s.id = n
  induction n using Nat.strong_induction_on generalizing s with
  | _ n ih =>
    cases hparent : s.parent? with
    | none => exact .root hs hparent
    | some p =>
      obtain ⟨hp, hlt⟩ := h s hs p hparent
      obtain ⟨t, ht, rfl⟩ := List.mem_map.mp hp
      exact .under hs hparent (ih _ (hn ▸ hlt) ht rfl)

theorem Forest.rooted (h : Forest steps) (hs : s ∈ steps) : Rooted steps s := by
  obtain ⟨rank, hrank⟩ := h.graded
  exact hrank.rooted hs

/-- The depths are a numbering. -/
theorem forest_of_rooted (distinct : (steps.map Step.id).Nodup)
    (h : ∀ s ∈ steps, Rooted steps s) : Forest steps := by
  have hdepths : ∀ id, ∃ k, ∀ s ∈ steps, s.id = id → AtDepth steps k s := by
    intro id
    by_cases hid : ∃ s ∈ steps, s.id = id
    · obtain ⟨s, hs, rfl⟩ := hid
      obtain ⟨k, hk⟩ := (h s hs).exists_atDepth
      exact ⟨k, fun t ht hts ↦ eq_of_id_eq distinct hs ht hts.symm ▸ hk⟩
    · exact ⟨0, fun s hs hs' ↦ absurd ⟨s, hs, hs'⟩ hid⟩
  choose rank hrank using hdepths
  refine ⟨distinct, rank, fun s hs p hparent ↦ ?_⟩
  have hdepth := hrank s.id s hs rfl
  generalize rank s.id = n at *
  cases hdepth with
  | root _ hnone => simp [hnone] at hparent
  | @under k _ t _ hsome ht =>
    obtain rfl : t.id = p := Option.some.inj (hsome.symm.trans hparent)
    have hsame := (hrank t.id t ht.mem rfl).unique distinct ht
    exact ⟨List.mem_map_of_mem ht.mem, by omega⟩

theorem Forest.nil : Forest [] := ⟨List.nodup_nil, fun _ ↦ 0, by simp [Graded]⟩

/-- The children of a deleted step move up to a step with a still smaller number. -/
theorem Forest.delete_reconnectAll {removed : Step} (h : Forest steps)
    (hdelete : delete .reconnectAll id steps = some (removed, result)) : Forest result := by
  obtain ⟨hremoved, rfl, rfl⟩ := (delete_reconnectAll_eq_some_iff h.distinct).mp hdelete
  obtain ⟨rank, hrank⟩ := h.graded
  refine ⟨map_id_contracted ▸ h.distinct.filter _, rank, fun s' hs' p hparent ↦ ?_⟩
  rw [map_id_contracted, List.mem_filter]
  obtain ⟨s, hs, rfl⟩ := List.mem_map.mp hs'
  have hmem := (List.mem_filter.mp hs).1
  rw [parent?_raised] at hparent
  rw [id_raised]
  by_cases hchild : s.parent? = some removed.id
  · rw [if_pos hchild] at hparent
    obtain ⟨hp, hlt⟩ := hrank removed hremoved p hparent
    have hlt' := (hrank s hmem _ hchild).2
    have hne : p ≠ removed.id := by
      rintro rfl
      exact Nat.lt_irrefl _ hlt
    exact ⟨⟨hp, by simpa using hne⟩, Nat.lt_trans hlt hlt'⟩
  · rw [if_neg hchild] at hparent
    obtain ⟨hp, hlt⟩ := hrank s hmem p hparent
    have hne : p ≠ removed.id := by
      rintro rfl
      exact hchild hparent
    exact ⟨⟨hp, by simpa using hne⟩, hlt⟩

/-- The numbers spread out, with one for a new step between its parent's and its child's. -/
def splicedRank (rank : String → Nat) (incoming : Step) (other : String) : Nat :=
  if other = incoming.id then incoming.parent?.elim 0 fun p ↦ 2 * rank p + 2
  else 2 * rank other + 1

theorem splicedRank_of_ne {rank : String → Nat} {other : String} (h : other ≠ incoming.id) :
    splicedRank rank incoming other = 2 * rank other + 1 := if_neg h

theorem splicedRank_lt {rank : String → Nat} {child : Step} (hrank : Graded rank steps)
    (hchild : child ∈ steps) (hne : child.id ≠ incoming.id)
    (hparent : child.parent? = incoming.parent?) :
    splicedRank rank incoming incoming.id < splicedRank rank incoming child.id := by
  rw [splicedRank_of_ne hne, splicedRank, if_pos rfl]
  cases hp : incoming.parent? with
  | none => exact Nat.succ_pos _
  | some p =>
    have hlt := (hrank child hchild p (hparent.trans hp)).2
    show 2 * rank p + 2 < _
    omega

theorem Forest.insert (h : Forest steps) (hnew : ∀ s ∈ steps, s.id ≠ incoming.id)
    (hinsert : insert steps incoming = .ok result) : Forest result := by
  obtain ⟨hknown, rfl⟩ := insert_cases hinsert
  obtain ⟨rank, hrank⟩ := h.graded
  have hids : (modifyFirst (·.parent? = incoming.parent?) (Step.setParent (some incoming.id))
      steps ++ [incoming]).map Step.id = steps.map Step.id ++ [incoming.id] := by
    rw [List.map_append, map_modifyFirst fun s _ ↦ s.id_setParent _, List.map_singleton]
  have hfresh : ∀ p ∈ steps.map Step.id, p ≠ incoming.id := by
    intro p hp
    obtain ⟨s, hs, rfl⟩ := List.mem_map.mp hp
    exact hnew s hs
  refine ⟨?_, splicedRank rank incoming, fun s' hs' p hparent ↦ ?_⟩
  · rw [hids]
    refine List.nodup_append.mpr ⟨h.distinct, List.nodup_singleton _, fun a ha b hb ↦ ?_⟩
    rw [List.mem_singleton.mp hb]
    exact hfresh a ha
  · rw [hids, List.mem_append]
    rcases List.mem_append.mp hs' with hold | hincoming
    · rcases mem_modifyFirst hold with hs | ⟨s, hs, hsibling, rfl⟩
      · obtain ⟨hp, hlt⟩ := hrank s' hs p hparent
        rw [splicedRank_of_ne (hfresh p hp), splicedRank_of_ne (hnew s' hs)]
        exact ⟨.inl hp, by omega⟩
      · rw [Step.parent?_setParent] at hparent
        obtain rfl := Option.some.inj (named?_eq_some_iff.mp hparent).1
        have hlt := splicedRank_lt hrank hs (hnew s hs) (by simpa using hsibling)
        exact ⟨.inr (List.mem_singleton.mpr rfl), hlt⟩
    · obtain rfl := List.mem_singleton.mp hincoming
      obtain ⟨t, ht, rfl⟩ := hknown p hparent
      rw [splicedRank_of_ne (hnew t ht), splicedRank, if_pos rfl, hparent]
      exact ⟨.inl (List.mem_map_of_mem ht), Nat.lt_succ_self _⟩

/-- The numbers of a step and of all below it, raised above that of its new parent. -/
def movedRank (rank : String → Nat) (steps : List Step) (id parent other : String) : Nat :=
  if isAncestor steps id other then rank other + rank parent + 1 else rank other

theorem Forest.replace {data : StepData} {parent : Option String} (h : Forest steps)
    (hreplace : replace steps id data parent = .ok result) : Forest result := by
  obtain ⟨rank, hrank⟩ := h.graded
  obtain ⟨-, rfl | ⟨p, -, ⟨t, ht, rfl⟩, hbelow, rfl⟩⟩ := replace_cases hreplace
  · have hids : (modifyFirst (·.id = id) (fun s ↦ { s with data }) steps).map Step.id =
        steps.map Step.id := map_modifyFirst fun _ _ ↦ rfl
    refine ⟨hids ▸ h.distinct, rank, fun s' hs' p hparent ↦ ?_⟩
    rw [hids]
    rcases mem_modifyFirst hs' with hs | ⟨s, hs, -, rfl⟩
    · exact hrank s' hs p hparent
    · exact hrank s hs p hparent
  · have hids : (modifyFirst (·.id = id) (fun s ↦ { s.setParent (some t.id) with data })
        steps).map Step.id = steps.map Step.id := map_modifyFirst fun _ _ ↦ rfl
    refine ⟨hids ▸ h.distinct, movedRank rank steps id t.id, fun s' hs' p hparent ↦ ?_⟩
    rw [hids]
    rw [modifyFirst_key_eq_map h.distinct] at hs'
    obtain ⟨s, hs, rfl⟩ := List.mem_map.mp hs'
    by_cases hid : s.id = id
    · rw [if_pos hid] at hparent ⊢
      have hp : t.id = p := Option.some.inj (named?_eq_some_iff.mp
        ((s.parent?_setParent _).symm.trans hparent)).1
      show _ ∧ _ < movedRank rank steps id t.id s.id
      rw [← hp, hid, movedRank, if_neg hbelow, movedRank, if_pos isAncestor_self]
      exact ⟨List.mem_map_of_mem ht, by omega⟩
    · rw [if_neg hid] at hparent ⊢
      obtain ⟨hp, hlt⟩ := hrank s hs p hparent
      have hup : parentOf steps s.id = some p := (parentOf_of_mem h.distinct hs).trans hparent
      have hbelow_iff : isAncestor steps id s.id ↔ isAncestor steps id p := by
        simp [isAncestor_of_parentOf hup, hid]
      refine ⟨hp, ?_⟩
      by_cases hmoved : isAncestor steps id p
      · rw [movedRank, if_pos hmoved, movedRank, if_pos (hbelow_iff.mpr hmoved)]
        omega
      · rw [movedRank, if_neg hmoved, movedRank, if_neg (mt hbelow_iff.mp hmoved)]
        exact hlt

theorem Forest.upsert (h : Forest steps) (hupsert : upsert steps incoming = .ok result) :
    Forest result := by
  obtain ⟨-, ⟨-, hreplace⟩ | ⟨hnew, hinsert⟩⟩ := upsert_cases hupsert
  · exact h.replace hreplace
  · exact h.insert hnew hinsert

/-- No steps at all, or a single step without a parent to which the parents of all others lead. -/
structure IsTree (steps : List Step) : Prop where
  oneRoot : steps = [] ∨ steps.countP (·.parent?.isNone) = 1
  known : ∀ s ∈ steps, ∀ p, s.parent? = some p → ∃ t ∈ steps, t.id = p
  reached : ∃ found marked, outline steps = .ok (found, marked) ∧ found.unreachable = []

theorem unreachable_eq_nil_iff (h : HasRoot steps top) :
    (outlineBelow steps top).1.unreachable = [] ↔ ∀ s ∈ steps, Rooted steps s := by
  classical
  rw [unreachable_eq h, List.map_eq_nil_iff, List.filter_eq_nil_iff]
  exact forall₂_congr fun s _ ↦ by rw [decide_eq_true_iff, not_not]

variable {found : Outline} {marked : List Step}

theorem forest_of_unreachable_eq_nil (houtline : outline steps = .ok (found, marked))
    (h : found.unreachable = []) : Forest steps := by
  rcases outline_eq_ok_iff.mp houtline with ⟨rfl, -⟩ | ⟨top, htop, heq⟩
  · exact .nil
  · obtain ⟨hfound, -⟩ := Prod.mk.inj heq
    subst hfound
    exact forest_of_rooted htop.distinct ((unreachable_eq_nil_iff htop).mp h)

theorem tree_of_unreachable_eq_nil (houtline : outline steps = .ok (found, marked))
    (h : found.unreachable = []) : IsTree steps := by
  refine ⟨(exists_outline_eq_ok_iff.mp ⟨_, houtline⟩).2, ?_, found, marked, houtline, h⟩
  intro s hs p hparent
  obtain ⟨rank, hrank⟩ := (forest_of_unreachable_eq_nil houtline h).graded
  exact List.mem_map.mp (hrank s hs p hparent).1

theorem IsTree.forest (h : IsTree steps) : Forest steps := by
  obtain ⟨found, marked, houtline, hunreachable⟩ := h.reached
  exact forest_of_unreachable_eq_nil houtline hunreachable

/-- The outline of a forest leaves no step out. -/
theorem Forest.unreachable_eq_nil (h : Forest steps)
    (houtline : outline steps = .ok (found, marked)) : found.unreachable = [] := by
  rcases outline_eq_ok_iff.mp houtline with ⟨-, heq⟩ | ⟨top, htop, heq⟩
  · rw [(Prod.mk.inj heq).1]
  · rw [(Prod.mk.inj heq).1]
    exact (unreachable_eq_nil_iff htop).mpr fun s hs ↦ h.rooted hs

theorem Forest.tree_marked (h : Forest steps)
    (houtline : outline steps = .ok (found, marked)) : IsTree marked :=
  tree_of_unreachable_eq_nil (outline_marked houtline) (h.unreachable_eq_nil houtline)

end StepTree

open StepTree

theorem forest_deleteSteps {steps : List Step} (h : Forest steps) (ids : List String) :
    Forest (deleteSteps .reconnectAll steps ids) := by
  induction ids generalizing steps with
  | nil => exact h
  | cons id ids ih =>
    have hnext : Forest (((StepTree.delete .reconnectAll id steps).map Prod.snd).getD steps) := by
      cases hdelete : StepTree.delete .reconnectAll id steps with
      | none => exact h
      | some found => exact h.delete_reconnectAll hdelete
    exact ih hnext

theorem forest_upsertSteps {steps incoming result : List Step} (h : Forest steps)
    (hupsert : upsertSteps steps incoming = .ok result) : Forest result :=
  foldlM_ok (fun _ _ _ hforest hstep ↦ hforest.upsert hstep) h hupsert

/-- The steps of an update pass through forests, whatever its deletions, moves and insertions. -/
theorem forest_update {u : FlowUpdate} {steps result : List Step} (h : Forest steps)
    (hupdate : u.steps .reconnectAll steps = .ok result) : Forest result :=
  forest_upsertSteps (forest_deleteSteps h _) hupdate

end GuidedTours
