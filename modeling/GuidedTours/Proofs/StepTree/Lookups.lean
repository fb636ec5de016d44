import GuidedTours.Proofs.StepTree.Ancestor
import GuidedTours.Proofs.StepTree.Marking

/-!
Looking up the root, the children and the ancestors of a step agrees with the outline, though one
goes through the list or up from a step and the other down from the root. The way up from a step
ends at the root exactly if the root leads to the step, so the ancestors tell what is unreachable;
the relations of a parent are its children in another order. The marked steps have the same outline
and agree with it as well.
-/

set_option autoImplicit false

namespace GuidedTours

namespace StepTree

variable {steps marked : List Step} {s p top : Step} {id : String} {path : List String}
variable {found : Outline}

theorem exists_rooted_of_way (h : HasRoot steps top) (hway : Way steps top.id id path) :
    ∃ s, Rooted steps s ∧ s.id = id := by
  induction hway with
  | here => exact ⟨top, h.rooted, rfl⟩
  | up hparent _ ih =>
    obtain ⟨p, hp, rfl⟩ := ih
    obtain ⟨s, hs, hid, hsparent⟩ := exists_mem_of_parentOf hparent
    exact ⟨s, .under hs hsparent hp, hid⟩

theorem isAncestor_of_rooted (h : HasRoot steps top) (hs : Rooted steps s) :
    isAncestor steps top.id s.id := by
  induction hs with
  | root hs hnone =>
    rw [h.mem_iff.mp ⟨hs, hnone⟩]
    exact isAncestor_self
  | under hs hsome _ ih =>
    have hparent := (parentOf_of_mem h.distinct hs).trans hsome
    exact (isAncestor_of_parentOf hparent).mpr (.inr ih)

theorem rooted_iff_isAncestor (h : HasRoot steps top) (hs : s ∈ steps) :
    Rooted steps s ↔ isAncestor steps top.id s.id := by
  refine ⟨isAncestor_of_rooted h, fun hancestor ↦ ?_⟩
  obtain ⟨path, hway⟩ := isAncestor_iff_exists_way.mp hancestor
  obtain ⟨t, ht, hid⟩ := exists_rooted_of_way h hway
  exact eq_of_id_eq h.distinct ht.mem hs hid ▸ ht

theorem mem_unreachable_iff (h : HasRoot steps top) (hs : s ∈ steps) :
    s.id ∈ (outlineBelow steps top).1.unreachable ↔ ¬ Rooted steps s := by
  have hid : s.id ∈ steps.map Step.id := List.mem_map_of_mem hs
  rw [← any_visitsFrom_id_iff h hs, outlineBelow, List.mem_filter, and_iff_right hid,
    Bool.not_eq_true', Bool.not_eq_true]

theorem mem_children_none {parent : String} :
    s ∈ children steps parent none ↔ s ∈ steps ∧ s.parent? = some parent := by
  simp [children, passes, named?]

/-- The relations of a step that the root leads to are one for each of its children. -/
theorem relations_perm_children (h : HasRoot steps top) (hp : Rooted steps p) :
    (((outlineBelow steps top).1.relations.filter (·.parent = p.id)).map Relation.child).Perm
      ((children steps p.id none).map Step.id) := by
  have hrelations : (((outlineBelow steps top).1.relations.filter (·.parent = p.id)).map
      Relation.child).Nodup :=
    (relationsOf_children_nodup h.distinct).sublist ((List.filter_sublist).map _)
  have hchildren : ((children steps p.id none).map Step.id).Nodup :=
    h.distinct.sublist ((List.filter_sublist.trans List.filter_sublist).map _)
  refine (List.perm_ext_iff_of_nodup hrelations hchildren).mpr fun c ↦ ?_
  have htarget : c ∈ ((outlineBelow steps top).1.relations.filter (·.parent = p.id)).map
      Relation.child ↔ ⟨p.id, c⟩ ∈ (outlineBelow steps top).1.relations := by
    simp only [List.mem_map, List.mem_filter, decide_eq_true_eq]
    constructor
    · intro hr
      obtain ⟨r, ⟨hr, hparent⟩, rfl⟩ := hr
      exact hparent ▸ hr
    · intro hr
      exact ⟨⟨p.id, c⟩, ⟨hr, rfl⟩, rfl⟩
  rw [htarget, outlineBelow, mem_relationsOf h, List.mem_map]
  simp only [mem_children_none]
  constructor
  · intro hr
    obtain ⟨s, hs, hid, hparent, -⟩ := hr
    exact ⟨s, ⟨hs, hparent⟩, hid⟩
  · intro hchild
    obtain ⟨s, ⟨hs, hparent⟩, hid⟩ := hchild
    exact ⟨s, hs, hid, hparent, p, hp, rfl⟩

theorem exists_rooted_of_mem_relations (h : HasRoot steps top) {r : Relation}
    (hr : r ∈ (outlineBelow steps top).1.relations) :
    (∃ p, Rooted steps p ∧ p.id = r.parent) ∧ ∃ s, Rooted steps s ∧ s.id = r.child := by
  obtain ⟨s, hs, hchild, hparent, p, hp, hid⟩ := (mem_relationsOf h).mp hr
  exact ⟨⟨p, hp, hid⟩, s, .under hs (hid ▸ hparent) hp, hchild⟩

/-- What an outline says is what looking it up in the steps says. -/
structure LookupsAgree (steps : List Step) (found : Outline) : Prop where
  root : ∃ top, StepTree.root steps = .ok top ∧ found.root = some top.id
  unreachable : ∀ top, found.root = some top → ∀ s ∈ steps,
    (s.id ∈ found.unreachable ↔ ¬ isAncestor steps top s.id)
  children : ∀ p ∈ steps, p.id ∉ found.unreachable →
    ((found.relations.filter (·.parent = p.id)).map Relation.child).Perm
      ((children steps p.id none).map Step.id)
  relations : ∀ r ∈ found.relations, r.parent ∉ found.unreachable ∧ r.child ∉ found.unreachable

theorem HasRoot.lookupsAgree (h : HasRoot steps top) :
    LookupsAgree steps (outlineBelow steps top).1 where
  root := ⟨top, root_eq_ok_iff.mpr h.parentless, rfl⟩
  unreachable id hid s hs := by
    obtain rfl : top.id = id := Option.some.inj hid
    rw [mem_unreachable_iff h hs, rooted_iff_isAncestor h hs]
  children p hp hreachable := by
    rw [mem_unreachable_iff h hp, not_not] at hreachable
    exact relations_perm_children h hreachable
  relations r hr := by
    obtain ⟨⟨p, hp, hparent⟩, s, hs, hchild⟩ := exists_rooted_of_mem_relations h hr
    rw [← hparent, ← hchild, mem_unreachable_iff h hp.mem, mem_unreachable_iff h hs.mem]
    exact ⟨not_not.mpr hp, not_not.mpr hs⟩

theorem lookupsAgree_of_outline (hne : steps ≠ []) (h : outline steps = .ok (found, marked)) :
    LookupsAgree steps found := by
  rcases outline_eq_ok_iff.mp h with ⟨hempty, -⟩ | ⟨top, htop, heq⟩
  · exact absurd hempty hne
  · rw [(Prod.mk.inj heq).1]
    exact htop.lookupsAgree

/-- There is a root to look up exactly if there is an outline, and they fail in the same way. -/
theorem lookups_agree_with_outline (hne : steps ≠ []) (distinct : (steps.map Step.id).Nodup) :
    (∀ e, root steps = .error e ↔ outline steps = .error e) ∧
      ∀ found marked, outline steps = .ok (found, marked) →
        LookupsAgree steps found ∧ LookupsAgree marked found := by
  refine ⟨fun e ↦ ?_, fun found marked h ↦ ?_⟩
  · rw [outline_of_nodup distinct hne, map_eq_error_iff]
  · have hagree := lookupsAgree_of_outline hne h
    refine ⟨hagree, lookupsAgree_of_outline ?_ (outline_marked h)⟩
    -- the outline of no steps has no root
    rintro rfl
    obtain ⟨top, -, hroot⟩ := hagree.root
    rw [← (Prod.mk.inj (Except.ok.inj (outline_marked h))).1] at hroot
    cases hroot

theorem lookups_agree_with_outline_scattered :
    ∃ found marked, outline scattered = .ok (found, marked) ∧ found.unreachable = ["b", "c", "d"] ∧
      LookupsAgree scattered found ∧ LookupsAgree marked found :=
  ⟨_, _, rfl, rfl, (lookups_agree_with_outline (by decide) (by decide)).2 _ _ rfl⟩

end StepTree

end GuidedTours
