import GuidedTours.Proofs.StepTree.Contraction
import GuidedTours.Proofs.StepTree.Forest

/-!
What a deletion does to a tree. Moving all children of the deleted step up contracts the tree, which
leaves a forest with the same ancestors among the other steps. Moving up the first child alone
leaves what contraction leaves, but with the later children cut off: their parent is gone. So the
unreachable steps are those at and below the later children, and there is more than one root only
where several children of the root have moved up.
-/

set_option autoImplicit false

namespace GuidedTours

namespace StepTree

variable {steps : List Step} {s t top : Step} {gone : String} {ids : List String}

theorem Graded.rank_le {rank : String → Nat} (h : Graded rank steps) {ancestor id : String}
    {path : List String} (hway : Way steps ancestor id path) : rank ancestor ≤ rank id := by
  induction hway with
  | here => exact Nat.le_refl _
  | @up id parent path hparent _ ih =>
    obtain ⟨t, ht, rfl, hsome⟩ := exists_mem_of_parentOf hparent
    exact Nat.le_trans ih (Nat.le_of_lt (h t ht parent hsome).2)

theorem Forest.acyclic (h : Forest steps) : Acyclic steps := by
  obtain ⟨rank, hrank⟩ := h.graded
  refine acyclic_iff.mpr fun id p hparent hancestor ↦ ?_
  obtain ⟨path, hway⟩ := isAncestor_iff_exists_way.mp hancestor
  obtain ⟨t, ht, rfl, hsome⟩ := exists_mem_of_parentOf hparent
  exact Nat.not_lt_of_le (hrank.rank_le hway) (hrank t ht p hsome).2

theorem Forest.not_isAncestor_parent (h : Forest steps) (ht : t ∈ steps) {p : String}
    (hparent : t.parent? = some p) : ¬ isAncestor steps t.id p :=
  acyclic_iff.mp h.acyclic t.id p ((parentOf_of_mem h.distinct ht).trans hparent)

theorem Rooted.exists_parentless (h : Rooted steps s) : ∃ t ∈ steps, t.parent? = none := by
  induction h with
  | root hs hparent => exact ⟨_, hs, hparent⟩
  | under _ _ _ ih => exact ih

theorem Rooted.of_parent (distinct : (steps.map Step.id).Nodup) (h : Rooted steps s)
    {p : Step} (hp : p ∈ steps) (hparent : s.parent? = some p.id) : Rooted steps p := by
  cases h with
  | root _ hnone => simp [hnone] at hparent
  | @under _ q _ hq hrooted =>
    have hid : q.id = p.id := Option.some.inj (hq.symm.trans hparent)
    exact eq_of_id_eq distinct hrooted.mem hp hid ▸ hrooted

theorem setParent_setParent_of_parent? {other : Option String} {p : String}
    (h : s.parent? = some p) : (s.setParent other).setParent (some p) = s := by
  obtain ⟨hparent, -⟩ := named?_eq_some_iff.mp h
  show { s with parentId := named? (some p) } = s
  rw [← hparent]
  exact congrArg (fun parentId ↦ { s with parentId }) (h.trans hparent.symm)

/-- Changing the steps but not their ids, one may ask for the ids that are left before or after. -/
theorem map_id_filter_map {f : Step → Step} (hid : ∀ t, (f t).id = t.id) {q : Step → Bool} :
    ((steps.map f).filter q).map Step.id = (steps.filter fun t ↦ q (f t)).map Step.id := by
  rw [List.filter_map, List.map_map]
  exact List.map_congr_left fun t _ ↦ hid t

/-! ### Cutting steps off -/

/-- A step with one of the ids is set below a parent that is gone. -/
def cutOff (gone : String) (ids : List String) (s : Step) : Step :=
  if s.id ∈ ids then s.setParent (some gone) else s

@[simp] theorem id_cutOff : (cutOff gone ids s).id = s.id := by
  unfold cutOff
  split <;> rfl

theorem cutOff_of_mem (h : s.id ∈ ids) : cutOff gone ids s = s.setParent (some gone) := if_pos h

theorem cutOff_of_not_mem (h : s.id ∉ ids) : cutOff gone ids s = s := if_neg h

theorem map_id_cutOff : (steps.map (cutOff gone ids)).map Step.id = steps.map Step.id := by
  simp [Function.comp_def]

section CutOff

variable (hnamed : ids ≠ [] → gone ≠ "")

include hnamed

theorem parent?_cutOff_of_mem (h : s.id ∈ ids) : (cutOff gone ids s).parent? = some gone := by
  rw [cutOff_of_mem h, Step.parent?_setParent]
  exact named?_eq_some_iff.mpr ⟨rfl, hnamed (List.ne_nil_of_mem h)⟩

theorem not_rooted_cutOff (hgone : ∀ t ∈ steps, t.id ≠ gone) (hid : s.id ∈ ids) :
    ¬ Rooted (steps.map (cutOff gone ids)) (cutOff gone ids s) := by
  intro hrooted
  have hparent := parent?_cutOff_of_mem hnamed hid
  cases hrooted with
  | root _ hnone => simp [hnone] at hparent
  | @under _ p _ hp hrooted =>
    obtain ⟨q, hq, rfl⟩ := List.mem_map.mp hrooted.mem
    have hpgone : (cutOff gone ids q).id = gone := Option.some.inj (hp.symm.trans hparent)
    exact hgone q hq (id_cutOff.symm.trans hpgone)

/-- A step stays rooted unless it is one of those cut off, or below one. -/
theorem Rooted.cutOff_iff (hgone : ∀ t ∈ steps, t.id ≠ gone)
    (distinct : (steps.map Step.id).Nodup) (h : Rooted steps s) :
    Rooted (steps.map (cutOff gone ids)) (cutOff gone ids s) ↔
      ∀ id ∈ ids, ¬ isAncestor steps id s.id := by
  have hdistinct : ((steps.map (cutOff gone ids)).map Step.id).Nodup := by
    rwa [map_id_cutOff]
  induction h with
  | @root s hs hnone =>
    by_cases hid : s.id ∈ ids
    · exact iff_of_false (not_rooted_cutOff hnamed hgone hid) fun hnot ↦
        hnot s.id hid isAncestor_self
    · refine iff_of_true (.root (List.mem_map_of_mem hs) ?_) fun id hmem hancestor ↦ ?_
      · rw [cutOff_of_not_mem hid, hnone]
      · have hself : s.id = id :=
          (isAncestor_of_no_parent ((parentOf_of_mem distinct hs).trans hnone)).mp hancestor
        exact hid (hself ▸ hmem)
  | @under s p hs hsome hp ih =>
    have hparent : parentOf steps s.id = some p.id := (parentOf_of_mem distinct hs).trans hsome
    by_cases hid : s.id ∈ ids
    · exact iff_of_false (not_rooted_cutOff hnamed hgone hid) fun hnot ↦
        hnot s.id hid isAncestor_self
    · have hsome' : (cutOff gone ids s).parent? = some (cutOff gone ids p).id := by
        rw [cutOff_of_not_mem hid, id_cutOff, hsome]
      have hup : Rooted (steps.map (cutOff gone ids)) (cutOff gone ids s) ↔
          Rooted (steps.map (cutOff gone ids)) (cutOff gone ids p) :=
        ⟨fun h ↦ h.of_parent hdistinct (List.mem_map_of_mem hp.mem) hsome',
          fun h ↦ .under (List.mem_map_of_mem hs) hsome' h⟩
      refine hup.trans (ih.trans (forall₂_congr fun id hmem ↦ ?_))
      have hne : s.id ≠ id := fun heq ↦ hid (heq ▸ hmem)
      rw [isAncestor_of_parentOf hparent, or_iff_right hne]

/-- Of the steps without a parent those that are cut off get one. -/
theorem roots_cutOff : ((steps.map (cutOff gone ids)).filter (·.parent?.isNone)).map Step.id =
    ((steps.filter (·.parent?.isNone)).map Step.id).filter (· ∉ ids) := by
  have hroot : ∀ t ∈ steps, (cutOff gone ids t).parent?.isNone =
      (decide (t.id ∉ ids) && t.parent?.isNone) := by
    intro t _
    by_cases hid : t.id ∈ ids
    · simp [parent?_cutOff_of_mem hnamed hid, hid]
    · simp [cutOff_of_not_mem hid, hid]
  rw [map_id_filter_map fun _ ↦ id_cutOff, List.filter_congr hroot, List.filter_map,
    List.filter_filter]
  rfl

theorem unreachable_cutOff (h : Forest steps) (hgone : ∀ t ∈ steps, t.id ≠ gone)
    (htop : HasRoot (steps.map (cutOff gone ids)) top) :
    (outlineBelow (steps.map (cutOff gone ids)) top).1.unreachable =
      (steps.filter fun t ↦ ids.any fun id ↦ isAncestor steps id t.id).map Step.id := by
  classical
  have hcut : ∀ t ∈ steps, decide (¬ Rooted (steps.map (cutOff gone ids)) (cutOff gone ids t)) =
      ids.any fun id ↦ isAncestor steps id t.id := by
    intro t ht
    rw [Bool.eq_iff_iff, decide_eq_true_iff, List.any_eq_true,
      (h.rooted ht).cutOff_iff hnamed hgone h.distinct]
    push Not
    rfl
  rw [unreachable_eq htop, map_id_filter_map fun _ ↦ id_cutOff, List.filter_congr hcut]

end CutOff

/-! ### Roots -/

theorem Forest.eq_nil_of_no_roots (h : Forest steps)
    (hroots : steps.filter (·.parent?.isNone) = []) : steps = [] := by
  refine List.eq_nil_iff_forall_not_mem.mpr fun s hs ↦ ?_
  obtain ⟨t, ht, hnone⟩ := (h.rooted hs).exists_parentless
  exact List.filter_eq_nil_iff.mp hroots t ht (by rw [hnone]; rfl)

theorem exists_hasRoot_of_roots (distinct : (steps.map Step.id).Nodup) {root : String}
    (h : (steps.filter (·.parent?.isNone)).map Step.id = [root]) :
    ∃ top, HasRoot steps top ∧ top.id = root := by
  obtain ⟨top, hroots, hid⟩ := List.map_eq_singleton_iff.mp h
  exact ⟨top, ⟨distinct, hroots⟩, hid⟩

theorem outline_of_several_roots (distinct : (steps.map Step.id).Nodup)
    (h : 1 < ((steps.filter (·.parent?.isNone)).map Step.id).length) :
    outline steps = .error (.manyRoots ((steps.filter (·.parent?.isNone)).map Step.id)) := by
  have hne : steps ≠ [] := by
    rintro rfl
    simp at h
  rw [List.length_map] at h
  rw [outline_of_nodup distinct hne, root_of_several h]
  rfl

/-! ### Deletions -/

theorem children_none {id : String} :
    children steps id none = steps.filter (·.parent? = some id) :=
  List.filter_eq_self.mpr fun _ _ ↦ rfl

theorem mem_children {id : String} :
    t ∈ children steps id none ↔ t ∈ steps ∧ t.parent? = some id := by
  rw [children_none, List.mem_filter, decide_eq_true_iff]

theorem Forest.id_ne_of_child (h : Forest steps) (hchild : t ∈ children steps s.id none) :
    t.id ≠ s.id := by
  obtain ⟨ht, hparent⟩ := mem_children.mp hchild
  intro hid
  exact h.not_isAncestor_parent ht hparent (hid ▸ isAncestor_self)

theorem Forest.children_others (h : Forest steps) :
    (steps.filter (·.id ≠ s.id)).filter (·.parent? = some s.id) = children steps s.id none := by
  rw [children_none, List.filter_filter]
  refine List.filter_congr fun t ht ↦ ?_
  by_cases hparent : t.parent? = some s.id
  · simp [hparent, h.id_ne_of_child (mem_children.mpr ⟨ht, hparent⟩)]
  · simp [hparent]

/-- The steps at and below some of the steps, in the order of the list. -/
def atOrBelow (steps tops : List Step) : List Step :=
  steps.filter fun t ↦ tops.any fun c ↦ isAncestor steps c.id t.id

theorem named_of_later_children :
    (children steps s.id none).tail.map Step.id ≠ [] → s.id ≠ "" := by
  intro hlater
  obtain ⟨id, hid⟩ := List.exists_mem_of_ne_nil _ hlater
  obtain ⟨c, hc, -⟩ := List.mem_map.mp hid
  exact (named?_eq_some_iff.mp (mem_children.mp (List.mem_of_mem_tail hc)).2).2

/-- The other steps, with the first child of the deleted one moved up and the later ones cut off. -/
def firstRaised (steps : List Step) (removed : Step) : List Step :=
  (contracted steps removed).map
    (cutOff removed.id ((children steps removed.id none).tail.map Step.id))

/-- Of the children that all move up the later ones are cut off, which puts them back. -/
theorem Forest.cutOff_raised (h : Forest steps) (ht : t ∈ steps) :
    cutOff s.id ((children steps s.id none).tail.map Step.id) (raised s t) =
      if t ∈ (children steps s.id none).tail then t
      else if t.parent? = some s.id then t.setParent s.parent? else t := by
  split
  next hlater =>
    have hparent : t.parent? = some s.id := (mem_children.mp (List.mem_of_mem_tail hlater)).2
    have hid : (raised s t).id ∈ (children steps s.id none).tail.map Step.id := by
      rw [id_raised]
      exact List.mem_map_of_mem hlater
    rw [cutOff_of_mem hid, raised, if_pos hparent]
    exact setParent_setParent_of_parent? hparent
  next hother =>
    have hid : (raised s t).id ∉ (children steps s.id none).tail.map Step.id := by
      rw [id_raised]
      intro hid
      obtain ⟨c, hc, hct⟩ := List.mem_map.mp hid
      have hcmem : c ∈ steps := (mem_children.mp (List.mem_of_mem_tail hc)).1
      exact hother (eq_of_id_eq h.distinct hcmem ht hct ▸ hc)
    rw [cutOff_of_not_mem hid, raised]

section Forests

variable (h : Forest steps) (hs : s ∈ steps)

include h hs

theorem Forest.contracted : Forest (StepTree.contracted steps s) :=
  h.delete_reconnectAll (delete_reconnectAll_of_mem h.distinct hs)

theorem Forest.delete_reconnectFirst :
    delete .reconnectFirst s.id steps = some (s, firstRaised steps s) := by
  have hnodup : (steps.filter (·.id ≠ s.id)).Nodup := (h.distinct.of_map _).filter _
  have hmoved : modifyFirst (·.parent? = some s.id) (Step.setParent s.parent?)
      (steps.filter (·.id ≠ s.id)) = firstRaised steps s := by
    rw [modifyFirst_eq_map hnodup, h.children_others, firstRaised, StepTree.contracted,
      List.map_map]
    refine List.map_congr_left fun t ht ↦ ?_
    rw [Function.comp_apply, h.cutOff_raised (List.mem_filter.mp ht).1]
    simp only [decide_eq_true_eq]
  rw [delete, find?_of_mem h.distinct hs, Option.map_some, eraseP_key_eq_filter h.distinct]
  exact congrArg (fun rest ↦ some (s, rest)) hmoved

theorem Forest.contracted_eq_nil_iff : StepTree.contracted steps s = [] ↔ steps = [s] := by
  rw [StepTree.contracted, List.map_eq_nil_iff]
  constructor
  · intro hnone
    have hperm := perm_cons_eraseP (find?_of_mem h.distinct hs)
    rw [eraseP_key_eq_filter h.distinct, hnone] at hperm
    exact List.perm_singleton.mp hperm
  · rintro rfl
    simp

/-- Among the other steps the contraction has the same ones below the children. -/
theorem Forest.below_contracted :
    ((StepTree.contracted steps s).filter fun t ↦
      ((children steps s.id none).tail.map Step.id).any fun id ↦
        isAncestor (StepTree.contracted steps s) id t.id).map Step.id =
      (atOrBelow steps (children steps s.id none).tail).map Step.id := by
  have hcontracts := contracts_contracted h.distinct hs
  have hbelow : ∀ t ∈ steps, (((children steps s.id none).tail.map Step.id).any (fun id ↦
      isAncestor (StepTree.contracted steps s) id (raised s t).id) && decide (t.id ≠ s.id)) =
      (children steps s.id none).tail.any fun c ↦ isAncestor steps c.id t.id := by
    intro t _
    rw [List.any_map, Bool.eq_iff_iff, Bool.and_eq_true, List.any_eq_true, List.any_eq_true,
      decide_eq_true_iff, id_raised]
    constructor
    · intro hbelow
      obtain ⟨⟨c, hc, hancestor⟩, hne⟩ := hbelow
      have hchild := h.id_ne_of_child (List.mem_of_mem_tail hc)
      exact ⟨c, hc, (hcontracts.isAncestor_eq hchild hne).symm.trans hancestor⟩
    · intro hbelow
      obtain ⟨c, hc, hancestor⟩ := hbelow
      have hchild := h.id_ne_of_child (List.mem_of_mem_tail hc)
      obtain ⟨hmem, hparent⟩ := mem_children.mp (List.mem_of_mem_tail hc)
      have hne : t.id ≠ s.id := fun hid ↦ h.not_isAncestor_parent hmem hparent (hid ▸ hancestor)
      exact ⟨⟨c, hc, (hcontracts.isAncestor_eq hchild hne).trans hancestor⟩, hne⟩
  conv_lhs => rw [StepTree.contracted, map_id_filter_map (id_raised s), List.filter_filter]
  exact congrArg _ (List.filter_congr hbelow)

end Forests

section Trees

variable (htop : HasRoot steps top) (h : Forest steps) (hs : s ∈ steps)

include htop h hs

/-- The children of a deleted root take its place. -/
theorem roots_contracted : ((contracted steps s).filter (·.parent?.isNone)).map Step.id =
    if s = top then (children steps s.id none).map Step.id else [top.id] := by
  rw [contracted, map_id_filter_map (id_raised s)]
  split
  next hroot =>
    rw [← h.children_others]
    refine congrArg _ (List.filter_congr fun t ht ↦ ?_)
    obtain ⟨hmem, hne⟩ := List.mem_filter.mp ht
    have hparent : t.parent?.isSome := by
      refine Option.isSome_iff_ne_none.mpr fun hnone ↦ ?_
      have htop' : t = top := htop.mem_iff.mp ⟨hmem, hnone⟩
      simp [htop', hroot] at hne
    have hnone : s.parent? = none := hroot ▸ htop.parent
    by_cases hchild : t.parent? = some s.id
    · simp [hchild, hnone]
    · simpa [hchild] using hparent
  next hroot =>
    have hparent : s.parent?.isSome :=
      Option.isSome_iff_ne_none.mpr fun hnone ↦ hroot (htop.mem_iff.mp ⟨hs, hnone⟩)
    have hsame : (steps.filter (·.id ≠ s.id)).filter (fun t ↦ (raised s t).parent?.isNone) =
        steps.filter (·.parent?.isNone) := by
      rw [List.filter_filter]
      refine List.filter_congr fun t ht ↦ ?_
      by_cases hid : t.id = s.id
      · obtain rfl : t = s := eq_of_id_eq h.distinct ht hs hid
        simpa using hparent
      · by_cases hchild : t.parent? = some s.id
        · simpa [hid, hchild] using hparent
        · simp [hid, hchild]
    rw [hsame, htop.parentless, List.map_singleton]

/-- Of the roots that a contraction leaves, the one that is not cut off: the first child of a
deleted root, or the root as it was. -/
theorem roots_firstRaised : ((firstRaised steps s).filter (·.parent?.isNone)).map Step.id =
    (if s = top then (children steps s.id none).head?.map Step.id else some top.id).toList := by
  rw [firstRaised, roots_cutOff named_of_later_children, roots_contracted htop h hs]
  split
  next =>
    have hnodup : ((children steps s.id none).map Step.id).Nodup := by
      rw [children_none]
      exact h.distinct.sublist (List.filter_sublist.map _)
    cases hchildren : children steps s.id none with
    | nil => rfl
    | cons c later =>
      rw [hchildren, List.map_cons, List.nodup_cons] at hnodup
      have hlater : (later.map Step.id).filter (· ∉ later.map Step.id) = [] :=
        List.filter_eq_nil_iff.mpr fun id hid ↦ by simpa using hid
      rw [List.map_cons, List.tail_cons, List.filter_cons_of_pos (by simpa using hnodup.1), hlater]
      rfl
  next =>
    refine List.filter_eq_self.mpr fun id hid ↦ ?_
    rw [List.mem_singleton.mp hid, decide_eq_true_iff]
    intro hlater
    obtain ⟨c, hc, hctop⟩ := List.mem_map.mp hlater
    obtain ⟨hmem, hparent⟩ := mem_children.mp (List.mem_of_mem_tail hc)
    obtain rfl : c = top := eq_of_id_eq h.distinct hmem htop.mem hctop
    simp [htop.parent] at hparent

theorem outline_firstRaised : ∃ found marked, outline (firstRaised steps s) = .ok (found, marked) ∧
    found.unreachable = (atOrBelow steps (children steps s.id none).tail).map Step.id ∧
    found.root =
      if s = top then (children steps s.id none).head?.map Step.id else some top.id := by
  have hcontracted : Forest (contracted steps s) := h.contracted hs
  have hroots := roots_firstRaised htop h hs
  cases hroot : if s = top then (children steps s.id none).head?.map Step.id else some top.id with
  | none =>
    have hleaf : s = top ∧ children steps s.id none = [] := by
      by_cases hdeleted : s = top
      · exact ⟨hdeleted, by simpa [hdeleted] using hroot⟩
      · simp [hdeleted] at hroot
    have hnone := roots_contracted htop h hs
    rw [if_pos hleaf.1, hleaf.2, List.map_nil, List.map_eq_nil_iff] at hnone
    refine ⟨{}, [], ?_, ?_, rfl⟩
    · rw [firstRaised, hcontracted.eq_nil_of_no_roots hnone]
      rfl
    · simp [hleaf.2, atOrBelow]
  | some root =>
    have hgone : ∀ t ∈ contracted steps s, t.id ≠ s.id := fun t ↦ id_ne_of_mem_contracted
    have hdistinct : ((firstRaised steps s).map Step.id).Nodup := by
      rw [firstRaised, map_id_cutOff]
      exact hcontracted.distinct
    rw [hroot] at hroots
    obtain ⟨top', htop', rfl⟩ := exists_hasRoot_of_roots hdistinct hroots
    refine ⟨_, _, outline_eq_ok_iff.mpr (.inr ⟨top', htop', rfl⟩), ?_, rfl⟩
    exact (unreachable_cutOff named_of_later_children hcontracted hgone htop').trans
      (h.below_contracted hs)

theorem outline_contracted : if s = top ∧ 2 ≤ (children steps s.id none).length then
      outline (contracted steps s) = .error (.manyRoots ((children steps s.id none).map Step.id))
    else ∃ found marked, outline (contracted steps s) = .ok (found, marked) ∧
      found.unreachable = [] := by
  have hcontracted : Forest (contracted steps s) := h.contracted hs
  have hroots := roots_contracted htop h hs
  split
  next hmany =>
    rw [if_pos hmany.1] at hroots
    have hseveral := outline_of_several_roots hcontracted.distinct
    rw [hroots, List.length_map] at hseveral
    exact hseveral hmany.2
  next hfew =>
    have hatMost : ((contracted steps s).filter (·.parent?.isNone)).length ≤ 1 := by
      rw [← List.length_map Step.id, hroots]
      split
      next hroot =>
        have hchildren : ¬ 2 ≤ (children steps s.id none).length := fun h ↦ hfew ⟨hroot, h⟩
        rw [List.length_map]
        omega
      next => exact Nat.le_refl _
    have hsuccess : ∃ result, outline (contracted steps s) = .ok result := by
      refine exists_outline_eq_ok_iff.mpr ⟨hcontracted.distinct, ?_⟩
      rcases Nat.le_one_iff_eq_zero_or_eq_one.mp hatMost with hnone | hone
      · exact .inl (hcontracted.eq_nil_of_no_roots (List.length_eq_zero_iff.mp hnone))
      · exact .inr (List.countP_eq_length_filter.trans hone)
    obtain ⟨⟨found, marked⟩, houtline⟩ := hsuccess
    exact ⟨found, marked, houtline, hcontracted.unreachable_eq_nil houtline⟩

end Trees

/-- The reach of a deletion. If the first child alone moves up, the steps at and below the later
children become unreachable, and the root is the old one or the first child of the deleted root. If
all children move up nothing becomes unreachable, but several children of a deleted root are as many
roots. -/
theorem deletion_from_tree (htop : HasRoot steps top) (hreached : ∀ t ∈ steps, Rooted steps t)
    (hs : s ∈ steps) :
    (∃ rest found marked, delete .reconnectFirst s.id steps = some (s, rest) ∧
      outline rest = .ok (found, marked) ∧
      found.unreachable = (atOrBelow steps (children steps s.id none).tail).map Step.id ∧
      found.root =
        (if s = top then (children steps s.id none).head?.map Step.id else some top.id) ∧
      (rest = [] ↔ steps = [s])) ∧
    ∃ rest, delete .reconnectAll s.id steps = some (s, rest) ∧
      if s = top ∧ 2 ≤ (children steps s.id none).length then
        outline rest = .error (.manyRoots ((children steps s.id none).map Step.id))
      else ∃ found marked, outline rest = .ok (found, marked) ∧ found.unreachable = [] := by
  have h : Forest steps := forest_of_rooted htop.distinct hreached
  obtain ⟨found, marked, houtline, hunreachable, hroot⟩ := outline_firstRaised htop h hs
  have hempty : firstRaised steps s = [] ↔ steps = [s] :=
    List.map_eq_nil_iff.trans (h.contracted_eq_nil_iff hs)
  exact ⟨⟨firstRaised steps s, found, marked, h.delete_reconnectFirst hs, houtline, hunreachable,
    hroot, hempty⟩, contracted steps s, delete_reconnectAll_of_mem h.distinct hs,
    outline_contracted htop h hs⟩

/-- A root `a` with the children `b` and `c`; `d` and `e` stand below `c`, and `f` below `d`. -/
def branched : List Step := [
  { id := "f", parentId := some "d" }, { id := "b", parentId := some "a" }, { id := "a" },
  { id := "c", parentId := some "a" }, { id := "e", parentId := some "c" },
  { id := "d", parentId := some "c" }]

theorem deletion_from_tree_branched :
    (∃ found marked, outline branched = .ok (found, marked) ∧ found.unreachable = []) ∧
    (∃ rest found marked, delete .reconnectFirst "a" branched = some ({ id := "a" }, rest) ∧
      outline rest = .ok (found, marked) ∧ found.root = some "b" ∧
      found.unreachable = ["f", "c", "e", "d"]) ∧
    ∃ rest, delete .reconnectAll "a" branched = some ({ id := "a" }, rest) ∧
      outline rest = .error (.manyRoots ["b", "c"]) := by
  have htop : HasRoot branched { id := "a" } := ⟨by decide, by decide⟩
  have houtline : outline branched = .ok (outlineBelow branched { id := "a" }) := rfl
  have hunreachable : (outlineBelow branched { id := "a" }).1.unreachable = [] := by decide
  have hreached := (unreachable_eq_nil_iff htop).mp hunreachable
  obtain ⟨⟨rest, found, marked, hrest, hok, hbelow, hroot, -⟩, all, hall, hmany⟩ :=
    deletion_from_tree htop hreached htop.mem
  exact ⟨⟨_, _, houtline, hunreachable⟩, ⟨rest, found, marked, hrest, hok, hroot, hbelow⟩, all,
    hall, hmany⟩

end StepTree

end GuidedTours
