import GuidedTours.Proofs.Attempts
import GuidedTours.Proofs.StepTree.Visits
import Mathlib.Data.List.Sort
import Mathlib.Data.String.Basic

/-!
What working out the outline gives. It succeeds exactly for the empty list and for a list with
distinct ids and a single step without a parent. The relations are then the parent and child pairs
below rooted steps in strictly ascending order, and the unreachable steps are those that are not
rooted, so every step is the root, or the child of one relation, or unreachable.
-/

set_option autoImplicit false

namespace GuidedTours

/-- The strict order by parent, then by child. -/
def Relation.Before (a b : Relation) : Prop :=
  a.parent < b.parent ∨ a.parent = b.parent ∧ a.child < b.child

namespace Relation

theorem le_iff {a b : Relation} :
    a.le b ↔ a.parent < b.parent ∨ a.parent = b.parent ∧ a.child ≤ b.child := by
  simp [Relation.le]

theorem le_total (a b : Relation) : (a.le b || b.le a) = true := by
  rw [Bool.or_eq_true, le_iff, le_iff]
  rcases lt_trichotomy a.parent b.parent with h | h | h
  · exact .inl (.inl h)
  · rcases Std.le_total (a := a.child) (b := b.child) with hchild | hchild
    · exact .inl (.inr ⟨h, hchild⟩)
    · exact .inr (.inr ⟨h.symm, hchild⟩)
  · exact .inr (.inl h)

theorem le_trans (a b c : Relation) (hab : a.le b) (hbc : b.le c) : a.le c := by
  rw [le_iff] at *
  rcases hab with hab | ⟨hab, hab'⟩
  · rcases hbc with hbc | ⟨hbc, -⟩
    · exact .inl (lt_trans hab hbc)
    · exact .inl (hbc ▸ hab)
  · rcases hbc with hbc | ⟨hbc, hbc'⟩
    · exact .inl (hab ▸ hbc)
    · exact .inr ⟨hab.trans hbc, Std.le_trans hab' hbc'⟩

theorem before_of_le {a b : Relation} (h : a.le b) (hne : a.child ≠ b.child) : a.Before b := by
  rcases le_iff.mp h with h | ⟨hparent, hchild⟩
  · exact .inl h
  · exact .inr ⟨hparent, lt_of_le_of_ne hchild hne⟩

theorem Before.asymm {a b : Relation} (h : a.Before b) : ¬ b.Before a := by
  intro h'
  rcases h with h | ⟨hparent, hchild⟩
  · rcases h' with h' | ⟨hparent', -⟩
    · exact lt_asymm h h'
    · exact h.ne hparent'.symm
  · rcases h' with h' | ⟨-, hchild'⟩
    · exact h'.ne hparent.symm
    · exact lt_asymm hchild hchild'

end Relation

namespace StepTree

variable {steps : List Step} {s top : Step} {visits : List Visit} {relations : List Relation}

theorem firstRepeat_eq_none_iff {seen ids : List String} :
    firstRepeat seen ids = none ↔ ids.Nodup ∧ ∀ id ∈ ids, id ∉ seen := by
  induction ids generalizing seen with
  | nil => simp [firstRepeat]
  | cons id rest ih =>
    by_cases hseen : id ∈ seen
    · simp [firstRepeat, hseen]
    · have hcontains : seen.contains id = false := by simpa using hseen
      simp only [firstRepeat, hcontains, Bool.false_eq_true, if_false, ih, List.nodup_cons,
        List.mem_cons]
      constructor
      · intro hrest
        obtain ⟨hnodup, hfresh⟩ := hrest
        refine ⟨⟨fun hmem ↦ hfresh id hmem (.inl rfl), hnodup⟩, ?_⟩
        rintro other (rfl | hother) hmem
        · exact hseen hmem
        · exact hfresh other hother (.inr hmem)
      · intro hall
        obtain ⟨⟨hid, hnodup⟩, hfresh⟩ := hall
        refine ⟨hnodup, ?_⟩
        rintro other hother (rfl | hmem)
        · exact hid hother
        · exact hfresh other (.inr hother) hmem

theorem root_eq_ok_iff : root steps = .ok top ↔ steps.filter (·.parent?.isNone) = [top] := by
  unfold root
  generalize steps.filter (·.parent?.isNone) = roots
  match roots with
  | [] => simp
  | [s] => simp
  | s :: t :: rest => simp

theorem root_of_none (h : steps.filter (·.parent?.isNone) = []) : root steps = .error .noRoot := by
  rw [root, h]

theorem root_of_several (h : 1 < (steps.filter (·.parent?.isNone)).length) :
    root steps = .error (.manyRoots ((steps.filter (·.parent?.isNone)).map Step.id)) := by
  unfold root
  generalize steps.filter (·.parent?.isNone) = roots at h
  match roots with
  | [] => exact absurd h (by simp)
  | [s] => exact absurd h (by simp)
  | s :: t :: rest => rfl

/-- What working out the outline of a list with a root gives. -/
def outlineBelow (steps : List Step) (top : Step) : Outline × List Step :=
  let visits := visitsFrom steps top
  let relations := relationsOf steps visits
  (⟨some top.id, relations, (steps.map Step.id).filter fun id ↦ !visits.any (·.id = id)⟩,
    steps.map (mark relations visits))

theorem outline_of_not_nodup (h : ¬ (steps.map Step.id).Nodup) :
    ∃ id, outline steps = .error (.repeatedId id) := by
  unfold outline
  cases hrepeat : firstRepeat [] (steps.map Step.id) with
  | some id => exact ⟨id, rfl⟩
  | none => exact absurd (firstRepeat_eq_none_iff.mp hrepeat).1 h

theorem outline_of_nodup (h : (steps.map Step.id).Nodup) (hne : steps ≠ []) :
    outline steps = (root steps).map (outlineBelow steps) := by
  have hnone : firstRepeat [] (steps.map Step.id) = none :=
    firstRepeat_eq_none_iff.mpr ⟨h, fun _ _ ↦ List.not_mem_nil⟩
  rw [outline, hnone, if_neg hne]
  cases root steps <;> rfl

theorem outline_eq_ok_iff {result : Outline × List Step} :
    outline steps = .ok result ↔
      steps = [] ∧ result = ({}, []) ∨
        ∃ top, HasRoot steps top ∧ result = outlineBelow steps top := by
  by_cases hnodup : (steps.map Step.id).Nodup
  · by_cases hempty : steps = []
    · subst hempty
      constructor
      · exact fun hresult ↦ .inl ⟨rfl, (Except.ok.inj hresult).symm⟩
      · intro hresult
        rcases hresult with ⟨-, rfl⟩ | ⟨top, htop, -⟩
        · rfl
        · exact absurd rfl htop.ne_nil
    · rw [outline_of_nodup hnodup hempty, or_iff_right fun h ↦ hempty h.1]
      constructor
      · intro hresult
        obtain ⟨top, hroot, rfl⟩ := map_eq_ok_iff.mp hresult
        exact ⟨top, ⟨hnodup, root_eq_ok_iff.mp hroot⟩, rfl⟩
      · intro hresult
        obtain ⟨top, htop, rfl⟩ := hresult
        rw [root_eq_ok_iff.mpr htop.parentless]
        rfl
  · obtain ⟨id, hrepeated⟩ := outline_of_not_nodup hnodup
    rw [hrepeated]
    refine iff_of_false (by simp) fun hresult ↦ ?_
    rcases hresult with ⟨rfl, -⟩ | ⟨top, htop, -⟩
    · exact hnodup List.nodup_nil
    · exact hnodup htop.distinct

theorem exists_hasRoot_iff :
    (∃ top, HasRoot steps top) ↔
      (steps.map Step.id).Nodup ∧ steps.countP (·.parent?.isNone) = 1 := by
  rw [List.countP_eq_length_filter, List.length_eq_one_iff]
  constructor
  · intro hroot
    obtain ⟨top, htop⟩ := hroot
    exact ⟨htop.distinct, top, htop.parentless⟩
  · intro hvalid
    obtain ⟨hnodup, top, htop⟩ := hvalid
    exact ⟨top, hnodup, htop⟩

theorem exists_outline_eq_ok_iff :
    (∃ result, outline steps = .ok result) ↔
      (steps.map Step.id).Nodup ∧ (steps = [] ∨ steps.countP (·.parent?.isNone) = 1) := by
  simp only [outline_eq_ok_iff]
  constructor
  · intro hresult
    obtain ⟨result, ⟨hempty, -⟩ | ⟨top, htop, -⟩⟩ := hresult
    · exact ⟨by simp [hempty], .inl hempty⟩
    · obtain ⟨hdistinct, hcount⟩ := exists_hasRoot_iff.mp ⟨top, htop⟩
      exact ⟨hdistinct, .inr hcount⟩
  · intro hvalid
    obtain ⟨hdistinct, hempty | hcount⟩ := hvalid
    · exact ⟨_, .inl ⟨hempty, rfl⟩⟩
    · obtain ⟨top, htop⟩ := exists_hasRoot_iff.mpr ⟨hdistinct, hcount⟩
      exact ⟨_, .inr ⟨top, htop, rfl⟩⟩

theorem relation?_eq_some_iff {r : Relation} :
    relation? visits s = some r ↔
      s.parent? = some r.parent ∧ visits.any (·.id = r.parent) ∧ r.child = s.id := by
  unfold relation?
  cases hparent : s.parent? with
  | none => simp
  | some parent =>
    by_cases hvisited : visits.any (·.id = parent)
    · simp only [Option.bind_some, hvisited, if_true, Option.some.injEq]
      constructor
      · rintro rfl
        exact ⟨rfl, hvisited, rfl⟩
      · intro hr
        obtain ⟨rfl, -, hchild⟩ := hr
        rw [← hchild]
    · simp only [Option.bind_some, hvisited, Bool.false_eq_true, if_false, reduceCtorEq,
        Option.some.injEq, false_iff]
      intro hr
      obtain ⟨rfl, hany, -⟩ := hr
      exact hvisited hany

theorem mem_relationsOf (h : HasRoot steps top) {r : Relation} :
    r ∈ relationsOf steps (visitsFrom steps top) ↔
      ∃ s ∈ steps, s.id = r.child ∧ s.parent? = some r.parent ∧
        ∃ p, Rooted steps p ∧ p.id = r.parent := by
  simp only [relationsOf, List.mem_mergeSort, List.mem_filterMap, relation?_eq_some_iff,
    any_visitsFrom_iff h]
  constructor
  · intro hr
    obtain ⟨s, hs, hparent, hp, hchild⟩ := hr
    exact ⟨s, hs, hchild.symm, hparent, hp⟩
  · intro hr
    obtain ⟨s, hs, hchild, hparent, hp⟩ := hr
    exact ⟨s, hs, hparent, hp, hchild.symm⟩

theorem relationsOf_children_nodup (distinct : (steps.map Step.id).Nodup) :
    ((relationsOf steps visits).map Relation.child).Nodup := by
  have hperm : ((relationsOf steps visits).map Relation.child).Perm
      ((steps.filterMap (relation? visits)).map Relation.child) :=
    (List.mergeSort_perm _ _).map _
  rw [hperm.nodup_iff, List.map_filterMap]
  refine distinct.sublist ?_
  clear distinct hperm
  induction steps with
  | nil => exact List.Sublist.slnil
  | cons s rest ih =>
    cases hr : relation? visits s with
    | none => simpa [List.filterMap_cons, hr] using ih.cons s.id
    | some r =>
      have hchild := (relation?_eq_some_iff.mp hr).2.2
      simpa [List.filterMap_cons, hr, hchild] using ih

theorem relationsOf_ascending (distinct : (steps.map Step.id).Nodup) :
    (relationsOf steps visits).Pairwise Relation.Before := by
  have hle : (relationsOf steps visits).Pairwise fun a b ↦ a.le b :=
    List.pairwise_mergeSort Relation.le_trans Relation.le_total _
  have hchildren : ((relationsOf steps visits).map Relation.child).Nodup :=
    relationsOf_children_nodup distinct
  exact hle.imp₂ (fun _ _ ↦ Relation.before_of_le) (List.pairwise_map.mp hchildren)

theorem SameLinks.mem_relationsOf {steps' : List Step} {top' : Step} {r : Relation}
    (h : SameLinks steps steps') (htop : HasRoot steps top) (htop' : HasRoot steps' top')
    (hr : r ∈ relationsOf steps (visitsFrom steps top)) :
    r ∈ relationsOf steps' (visitsFrom steps' top') := by
  obtain ⟨s, hs, hchild, hparent, hrooted⟩ := (StepTree.mem_relationsOf htop).mp hr
  obtain ⟨s', hs', hid', hparent'⟩ := h.forth s hs
  exact (StepTree.mem_relationsOf htop').mpr ⟨s', hs', hid'.trans hchild, hparent'.trans hparent,
    h.exists_rooted_iff.mp hrooted⟩

/-- The relations are the same ones and in order, so they make the same list. -/
theorem SameLinks.relationsOf_eq {steps' : List Step} {top' : Step} (h : SameLinks steps steps')
    (htop : HasRoot steps top) (htop' : HasRoot steps' top') :
    relationsOf steps (visitsFrom steps top) = relationsOf steps' (visitsFrom steps' top') := by
  have : Std.Irrefl Relation.Before := ⟨fun _ hr ↦ hr.asymm hr⟩
  have : Std.Antisymm Relation.Before := ⟨fun _ _ hr hr' ↦ absurd hr' hr.asymm⟩
  exact List.Pairwise.eq_of_mem_iff (relationsOf_ascending htop.distinct)
    (relationsOf_ascending htop'.distinct) fun _ ↦
      ⟨h.mem_relationsOf htop htop', h.symm.mem_relationsOf htop' htop⟩

theorem relation?_isSome_iff (h : HasRoot steps top) (hs : s ∈ steps) :
    (relation? (visitsFrom steps top) s).isSome ↔ Rooted steps s ∧ s ≠ top := by
  simp only [Option.isSome_iff_exists, relation?_eq_some_iff, any_visitsFrom_iff h]
  constructor
  · intro hr
    obtain ⟨r, hparent, ⟨p, hp, hid⟩, -⟩ := hr
    refine ⟨.under hs (hid ▸ hparent) hp, ?_⟩
    rintro rfl
    simp [h.parent] at hparent
  · intro hs'
    obtain ⟨hrooted, hne⟩ := hs'
    cases hrooted with
    | root _ hparent => exact absurd (h.mem_iff.mp ⟨hs, hparent⟩) hne
    | @under _ p _ hparent hp => exact ⟨⟨p.id, s.id⟩, hparent, ⟨p, hp, rfl⟩, rfl⟩

theorem countP_add_countP_add_countP {α : Type} {p q r : α → Bool} {xs : List α}
    (h : ∀ x ∈ xs, (p x).toNat + (q x).toNat + (r x).toNat = 1) :
    xs.countP p + xs.countP q + xs.countP r = xs.length := by
  induction xs with
  | nil => rfl
  | cons x xs ih =>
    have hx := h x List.mem_cons_self
    have hxs := ih fun y hy ↦ h y (List.mem_cons_of_mem x hy)
    simp only [List.countP_cons, List.length_cons]
    cases hp : p x <;> cases hq : q x <;> cases hr : r x <;> simp_all <;> omega

/-- Every step is the child of one relation, or unreachable, or the root. -/
theorem length_relations_add_length_unreachable (h : HasRoot steps top) :
    (outlineBelow steps top).1.relations.length +
      (outlineBelow steps top).1.unreachable.length + 1 = steps.length := by
  have hrelations : (outlineBelow steps top).1.relations.length =
      steps.countP fun s ↦ (relation? (visitsFrom steps top) s).isSome := by
    simp [outlineBelow, relationsOf, List.length_filterMap_eq_countP]
  have hunreachable : (outlineBelow steps top).1.unreachable.length =
      steps.countP fun s ↦ !(visitsFrom steps top).any (·.id = s.id) := by
    simp only [outlineBelow, ← List.countP_eq_length_filter, List.countP_map]
    rfl
  have hroot : 1 = steps.countP (·.parent?.isNone) := by
    rw [List.countP_eq_length_filter, h.parentless]
    rfl
  have hcount : (steps.countP fun s ↦ (relation? (visitsFrom steps top) s).isSome) +
      (steps.countP fun s ↦ !(visitsFrom steps top).any (·.id = s.id)) +
      steps.countP (·.parent?.isNone) = steps.length := by
    classical
    refine countP_add_countP_add_countP fun s hs ↦ ?_
    have hrelation : (relation? (visitsFrom steps top) s).isSome =
        decide (Rooted steps s ∧ s ≠ top) :=
      Bool.eq_iff_iff.mpr (by simpa using relation?_isSome_iff h hs)
    have hvisited : (visitsFrom steps top).any (·.id = s.id) = decide (Rooted steps s) :=
      Bool.eq_iff_iff.mpr (by simpa using any_visitsFrom_id_iff h hs)
    have htop : s.parent?.isNone = decide (s = top) :=
      Bool.eq_iff_iff.mpr (by simpa [hs] using h.mem_iff (s := s))
    rw [hrelation, hvisited, htop]
    by_cases hs' : s = top
    · simp [hs', h.rooted]
    · by_cases hrooted : Rooted steps s <;> simp [hs', hrooted]
  omega

open scoped Classical in
theorem unreachable_eq (h : HasRoot steps top) :
    (outlineBelow steps top).1.unreachable =
      (steps.filter fun s ↦ ¬ Rooted steps s).map Step.id := by
  simp only [outlineBelow, List.filter_map]
  refine congrArg _ (List.filter_congr fun s hs ↦ ?_)
  have hvisited : (visitsFrom steps top).any (·.id = s.id) = decide (Rooted steps s) :=
    Bool.eq_iff_iff.mpr (by rw [any_visitsFrom_id_iff h hs, decide_eq_true_iff])
  rw [Function.comp_apply, hvisited, decide_not]

@[simp] theorem id_mark : (mark relations visits s).id = s.id := rfl

theorem map_id_marked : (outlineBelow steps top).2.map Step.id = steps.map Step.id := by
  simp [outlineBelow, Function.comp_def]

theorem isSource_marked_iff (h : HasRoot steps top) (hs : s ∈ (outlineBelow steps top).2) :
    s.opts.isSource ↔ s.id = top.id := by
  obtain ⟨t, ht, rfl⟩ := List.mem_map.mp hs
  have hsource : t.parent?.isNone ↔ t = top := by
    simpa [ht] using h.mem_iff (s := t)
  show t.parent?.isNone ↔ t.id = top.id
  rw [hsource]
  exact ⟨congrArg Step.id, eq_of_id_eq h.distinct ht h.mem⟩

theorem isFinal_marked_iff (hs : s ∈ (outlineBelow steps top).2) :
    s.opts.isFinal ↔ ∀ r ∈ (outlineBelow steps top).1.relations, r.parent ≠ s.id := by
  obtain ⟨t, -, rfl⟩ := List.mem_map.mp hs
  simp [outlineBelow, mark]

open scoped Classical in
/-- The outline in terms of reachability. The rooted steps of a list with one parentless step are
those from which following parents arrives at that step. -/
theorem outline_reachability (steps : List Step) :
    ((∃ result, outline steps = .ok result) ↔
      (steps.map Step.id).Nodup ∧ (steps = [] ∨ steps.countP (·.parent?.isNone) = 1)) ∧
    ∀ found marked, outline steps = .ok (found, marked) → steps ≠ [] →
      (∃ top ∈ steps, top.parent? = none ∧ found.root = some top.id) ∧
      found.relations.Pairwise Relation.Before ∧
      (∀ p c, ⟨p, c⟩ ∈ found.relations ↔
        ∃ s ∈ steps, s.id = c ∧ s.parent? = some p ∧ ∃ t, Rooted steps t ∧ t.id = p) ∧
      found.unreachable = (steps.filter fun s ↦ ¬ Rooted steps s).map Step.id ∧
      found.relations.length + found.unreachable.length + 1 = steps.length ∧
      marked.map Step.id = steps.map Step.id ∧
      ∀ s ∈ marked, (s.opts.isSource ↔ found.root = some s.id) ∧
        (s.opts.isFinal ↔ ∀ r ∈ found.relations, r.parent ≠ s.id) := by
  refine ⟨exists_outline_eq_ok_iff, ?_⟩
  intro found marked hresult hnonempty
  rcases outline_eq_ok_iff.mp hresult with ⟨hempty, -⟩ | ⟨top, htop, heq⟩
  · exact absurd hempty hnonempty
  · obtain ⟨hfound, hmarked⟩ := Prod.mk.inj heq
    subst hfound hmarked
    refine ⟨⟨top, htop.mem, htop.parent, rfl⟩, relationsOf_ascending htop.distinct,
      fun p c ↦ mem_relationsOf htop, unreachable_eq htop,
      length_relations_add_length_unreachable htop, map_id_marked, fun s hs ↦ ⟨?_, ?_⟩⟩
    · rw [isSource_marked_iff htop hs]
      show s.id = top.id ↔ some top.id = some s.id
      rw [Option.some_inj, eq_comm]
    · exact isFinal_marked_iff hs

end StepTree

end GuidedTours
