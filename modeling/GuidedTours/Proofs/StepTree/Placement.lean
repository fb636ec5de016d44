import GuidedTours.Proofs.StepTree.Marking

/-!
The outline depends on where the steps stand and how they are tagged, and on nothing else of them.
Two lists with the same ids, parents and segments, in whatever order, have the same rooted steps
with the same segments in force. Hence the walks visit the same ids, and the sorted relations, the
flags and the segments of the marked steps agree; only what is listed in the order of the steps may
come in another order.
-/

set_option autoImplicit false

namespace GuidedTours

/-- Where a step stands, and how it is tagged. -/
structure Placement where
  id : String
  parent : Option String
  segment : Option String
deriving DecidableEq

/-- What working out the outline gives a step. -/
structure Marks where
  isSource : Bool
  isFinal : Bool
  segment : Option String
deriving DecidableEq

namespace Step

def placement (s : Step) : Placement := ⟨s.id, s.parent?, s.segment?⟩

def marks (s : Step) : Marks := ⟨s.opts.isSource, s.opts.isFinal, s.segment?⟩

end Step

namespace StepTree

variable {steps steps' : List Step} {s s' top top' : Step} {id : String}

def SamePlacements (steps steps' : List Step) : Prop :=
  (steps.map Step.placement).Perm (steps'.map Step.placement)

/-- Either both fail with one kind of error, or both succeed and differ in the order alone. -/
inductive Agree : Except TreeError (Outline × List Step) →
    Except TreeError (Outline × List Step) → Prop
  | noRoot : Agree (.error .noRoot) (.error .noRoot)
  | manyRoots {ids ids' : List String} (h : ids.Perm ids') :
    Agree (.error (.manyRoots ids)) (.error (.manyRoots ids'))
  | repeatedId (id id' : String) : Agree (.error (.repeatedId id)) (.error (.repeatedId id'))
  | outlined {found found' : Outline} {marked marked' : List Step}
    (root : found.root = found'.root) (relations : found.relations = found'.relations)
    (unreachable : found.unreachable.Perm found'.unreachable)
    (marks : ∀ id, (find? marked id).map Step.marks = (find? marked' id).map Step.marks) :
    Agree (.ok (found, marked)) (.ok (found', marked'))

namespace SamePlacements

theorem symm (h : SamePlacements steps steps') : SamePlacements steps' steps := List.Perm.symm h

theorem ids (h : SamePlacements steps steps') : (steps.map Step.id).Perm (steps'.map Step.id) := by
  have hids : ((steps.map Step.placement).map Placement.id).Perm
      ((steps'.map Step.placement).map Placement.id) := h.map _
  rwa [List.map_map, List.map_map] at hids

theorem exists_mem (h : SamePlacements steps steps') (hs : s ∈ steps) :
    ∃ s' ∈ steps', s'.placement = s.placement :=
  List.mem_map.mp (h.mem_iff.mp (List.mem_map_of_mem hs))

theorem links (h : SamePlacements steps steps') : SameLinks steps steps' where
  forth s hs := by
    obtain ⟨s', hs', hsame⟩ := h.exists_mem hs
    obtain ⟨hid, hparent, -⟩ := Placement.mk.inj hsame
    exact ⟨s', hs', hid, hparent⟩
  back s' hs' := by
    obtain ⟨s, hs, hsame⟩ := h.symm.exists_mem hs'
    obtain ⟨hid, hparent, -⟩ := Placement.mk.inj hsame
    exact ⟨s, hs, hid, hparent⟩

theorem parentless (h : SamePlacements steps steps') :
    SamePlacements (steps.filter (·.parent?.isNone)) (steps'.filter (·.parent?.isNone)) := by
  have hroots : ((steps.map Step.placement).filter (·.parent.isNone)).Perm
      ((steps'.map Step.placement).filter (·.parent.isNone)) := h.filter _
  rwa [List.filter_map, List.filter_map] at hroots

/-- The segment in force at a step is the one in force where it stands in the other list. -/
theorem inForce (h : SamePlacements steps steps') {segment : Option String}
    (hforce : InForce steps s segment) (hs' : s' ∈ steps') (hsame : s'.placement = s.placement) :
    InForce steps' s' segment := by
  induction hforce generalizing s' with
  | @root s _ hnone =>
    obtain ⟨-, hparent, hsegment⟩ := Placement.mk.inj hsame
    rw [← hsegment]
    exact .root hs' (hparent.trans hnone)
  | @under s p segment _ hsome hp ih =>
    obtain ⟨-, hparent, hsegment⟩ := Placement.mk.inj hsame
    obtain ⟨p', hp', hplaced⟩ := h.exists_mem hp.mem
    obtain ⟨hid, -, -⟩ := Placement.mk.inj hplaced
    have hsome' : s'.parent? = some p'.id := by rw [hparent, hsome, hid]
    rw [← hsegment]
    exact .under hs' hsome' (ih hp' hplaced)

theorem rooted (h : SamePlacements steps steps') (hs : Rooted steps s) (hs' : s' ∈ steps')
    (hsame : s'.placement = s.placement) : Rooted steps' s' := by
  obtain ⟨segment, hforce⟩ := hs.exists_inForce
  exact (h.inForce hforce hs' hsame).rooted

/-- Looked up by its id, a step stands in both lists in the same place. -/
theorem find?_cases (h : SamePlacements steps steps') (distinct : (steps.map Step.id).Nodup)
    (id : String) : find? steps id = none ∧ find? steps' id = none ∨
      ∃ s ∈ steps, ∃ s' ∈ steps', s'.placement = s.placement ∧
        find? steps id = some s ∧ find? steps' id = some s' := by
  cases hfind : find? steps id with
  | none =>
    refine .inl ⟨rfl, ?_⟩
    have hids : id ∉ steps.map Step.id := by simpa [find?] using hfind
    rw [h.ids.mem_iff] at hids
    simpa [find?] using hids
  | some s =>
    obtain ⟨hs, rfl⟩ := (find?_eq_some_iff_of_distinct distinct).mp hfind
    obtain ⟨s', hs', hsame⟩ := h.exists_mem hs
    obtain ⟨hid, -, -⟩ := Placement.mk.inj hsame
    have hfind' : find? steps' s.id = some s' :=
      (find?_eq_some_iff_of_distinct (h.ids.nodup_iff.mp distinct)).mpr ⟨hs', hid⟩
    exact .inr ⟨s, hs, s', hs', hsame, rfl, hfind'⟩

section Roots

/-! Both lists have a root. -/

variable (h : SamePlacements steps steps') (htop : HasRoot steps top) (htop' : HasRoot steps' top')

include h htop htop'

theorem root_id : top.id = top'.id := by
  obtain ⟨s', hs', hsame⟩ := h.exists_mem htop.mem
  obtain ⟨hid, hparent, -⟩ := Placement.mk.inj hsame
  obtain rfl : s' = top' := htop'.mem_iff.mp ⟨hs', hparent.trans htop.parent⟩
  exact hid.symm

theorem segment?_mark (relations : List Relation) (hs : s ∈ steps) (hs' : s' ∈ steps')
    (hsame : s'.placement = s.placement) :
    (mark relations (visitsFrom steps top) s).segment? =
      (mark relations (visitsFrom steps' top') s').segment? := by
  by_cases hrooted : Rooted steps s
  · obtain ⟨segment, hforce⟩ := hrooted.exists_inForce
    rw [hforce.segment?_mark relations htop,
      (h.inForce hforce hs' hsame).segment?_mark relations htop']
  · have hrooted' : ¬ Rooted steps' s' := fun hr ↦ hrooted (h.symm.rooted hr hs hsame.symm)
    rw [segment?_mark_of_not_rooted relations htop hs hrooted,
      segment?_mark_of_not_rooted relations htop' hs' hrooted']
    obtain ⟨-, -, hsegment⟩ := Placement.mk.inj hsame
    exact hsegment.symm

theorem marks_mark (relations : List Relation) (hs : s ∈ steps) (hs' : s' ∈ steps')
    (hsame : s'.placement = s.placement) :
    (mark relations (visitsFrom steps top) s).marks =
      (mark relations (visitsFrom steps' top') s').marks := by
  obtain ⟨hid, hparent, -⟩ := Placement.mk.inj hsame
  have hsource : (mark relations (visitsFrom steps top) s).opts.isSource =
      (mark relations (visitsFrom steps' top') s').opts.isSource := by
    show s.parent?.isNone = s'.parent?.isNone
    rw [hparent]
  have hfinal : (mark relations (visitsFrom steps top) s).opts.isFinal =
      (mark relations (visitsFrom steps' top') s').opts.isFinal := by
    show (!relations.any (·.parent = s.id)) = !relations.any (·.parent = s'.id)
    rw [hid]
  rw [Step.marks, Step.marks, hsource, hfinal, h.segment?_mark htop htop' relations hs hs' hsame]

theorem agree_outlineBelow :
    Agree (.ok (outlineBelow steps top)) (.ok (outlineBelow steps' top')) := by
  have hrelations := h.links.relationsOf_eq htop htop'
  refine .outlined (congrArg some (h.root_id htop htop')) hrelations ?_ ?_
  · simp only [h.links.any_visitsFrom htop htop']
    exact h.ids.filter _
  · intro id
    rw [find?_marked, find?_marked, ← hrelations]
    rcases h.find?_cases htop.distinct id with ⟨hnone, hnone'⟩ |
      ⟨s, hs, s', hs', hsame, hfind, hfind'⟩
    · rw [hnone, hnone']
      rfl
    · rw [hfind, hfind']
      exact congrArg some (h.marks_mark htop htop' _ hs hs' hsame)

end Roots

theorem agree_map_root (h : SamePlacements steps steps') (hdistinct : (steps.map Step.id).Nodup) :
    Agree ((root steps).map (outlineBelow steps)) ((root steps').map (outlineBelow steps')) := by
  have hdistinct' : (steps'.map Step.id).Nodup := h.ids.nodup_iff.mp hdistinct
  have hroots : (steps.filter (·.parent?.isNone)).length =
      (steps'.filter (·.parent?.isNone)).length := by simpa using h.parentless.ids.length_eq
  rcases Nat.lt_trichotomy (steps.filter (·.parent?.isNone)).length 1 with hfew | hone | hmany
  · have hnone := List.length_eq_zero_iff.mp (Nat.lt_one_iff.mp hfew)
    have hnone' := List.length_eq_zero_iff.mp (Nat.lt_one_iff.mp (hroots ▸ hfew))
    rw [root_of_none hnone, root_of_none hnone']
    exact .noRoot
  · obtain ⟨top, htop⟩ := List.length_eq_one_iff.mp hone
    obtain ⟨top', htop'⟩ := List.length_eq_one_iff.mp (hroots ▸ hone)
    rw [root_eq_ok_iff.mpr htop, root_eq_ok_iff.mpr htop']
    exact h.agree_outlineBelow ⟨hdistinct, htop⟩ ⟨hdistinct', htop'⟩
  · rw [root_of_several hmany, root_of_several (hroots ▸ hmany)]
    exact .manyRoots h.parentless.ids

end SamePlacements

/-- Neither the order of the steps nor anything else of them but their placements matters. -/
theorem outline_of_same_placements (h : SamePlacements steps steps') :
    Agree (outline steps) (outline steps') := by
  by_cases hdistinct : (steps.map Step.id).Nodup
  · by_cases hempty : steps = []
    · obtain rfl : steps' = [] := by simpa [hempty] using h.ids.length_eq.symm
      rw [hempty]
      exact .outlined rfl rfl (.refl _) fun _ ↦ rfl
    · have hempty' : steps' ≠ [] := by
        rintro rfl
        exact hempty (by simpa using h.ids.length_eq)
      rw [outline_of_nodup hdistinct hempty,
        outline_of_nodup (h.ids.nodup_iff.mp hdistinct) hempty']
      exact h.agree_map_root hdistinct
  · obtain ⟨id, hrepeated⟩ := outline_of_not_nodup hdistinct
    obtain ⟨id', hrepeated'⟩ := outline_of_not_nodup (mt h.ids.nodup_iff.mpr hdistinct)
    rw [hrepeated, hrepeated']
    exact .repeatedId id id'

/-- Three steps below each other, and a step whose parent is missing. -/
def listed : List Step := [
  { id := "a" },
  { id := "b", parentId := some "a", opts := { segmentId := some "admins" } },
  { id := "c", parentId := some "b" },
  { id := "d", parentId := some "ghost" }]

/-- The same steps in another order, with contents of their own and with flags that are out of
date. -/
def rearranged : List Step := [
  { id := "d", parentId := some "ghost", opts := { isSource := true } },
  { id := "c", parentId := some "b", data := { name := "Done" }, opts := { segmentId := some "" } },
  { id := "a", parentId := some "", opts := { isFinal := true, actionable := true } },
  { id := "b", parentId := some "a", opts := { isFinal := true, segmentId := some "admins" } }]

theorem outline_of_same_placements_rearranged :
    SamePlacements listed rearranged ∧
    (∃ found marked, outline listed = .ok (found, marked) ∧
      marked.map (fun s ↦ (s.id, s.segment?)) =
        [("a", none), ("b", some "admins"), ("c", some "admins"), ("d", none)]) ∧
    Agree (outline listed) (outline rearranged) := by
  have hsame : SamePlacements listed rearranged := List.isPerm_iff.mp (by decide)
  exact ⟨hsame, ⟨_, _, rfl, rfl⟩, outline_of_same_placements hsame⟩

end StepTree

end GuidedTours
