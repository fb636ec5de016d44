import GuidedTours.Proofs.StepTree.Marking
import Mathlib.Data.List.Forall2

/-!
Segments are handed down. The lineage of a step lists the steps from it up to the root, and marking
gives the step the first segment on it. A step without a lineage keeps what it has, and of no step
does marking change anything but the two flags and a segment that is inherited.
-/

set_option autoImplicit false

namespace GuidedTours

namespace StepTree

variable {steps : List Step} {s t top : Step} {line : List Step}

/-- The steps from one step up to a step without a parent, both included. -/
inductive Lineage (steps : List Step) : Step → List Step → Prop
  | root {s : Step} (hs : s ∈ steps) (hparent : s.parent? = none) : Lineage steps s [s]
  | under {s p : Step} {line : List Step} (hs : s ∈ steps) (hparent : s.parent? = some p.id)
      (hp : Lineage steps p line) : Lineage steps s (s :: line)

theorem nearest_cons : (s :: line).findSome? Step.segment? =
    s.segment?.or (line.findSome? Step.segment?) := by
  rw [List.findSome?_cons]
  cases s.segment? <;> rfl

/-- The segment in force at a step is the nearest one on its lineage. -/
theorem Lineage.inForce (h : Lineage steps s line) :
    InForce steps s (line.findSome? Step.segment?) := by
  induction h with
  | @root s hs hparent =>
    rw [nearest_cons, List.findSome?_nil, Option.or_none]
    exact .root hs hparent
  | @under s p line hs hparent _ ih =>
    rw [nearest_cons]
    exact .under hs hparent ih

theorem rooted_iff_exists_lineage : Rooted steps s ↔ ∃ line, Lineage steps s line := by
  constructor
  · intro h
    induction h with
    | @root s hs hparent => exact ⟨[s], .root hs hparent⟩
    | @under s p hs hparent _ ih =>
      obtain ⟨line, hline⟩ := ih
      exact ⟨s :: line, .under hs hparent hline⟩
  · intro h
    obtain ⟨line, hline⟩ := h
    exact hline.inForce.rooted

/-- What becomes of a step when the outline is worked out. -/
structure Inherits (steps : List Step) (s t : Step) : Prop where
  nearest : ∀ line, Lineage steps s line → t.segment? = line.findSome? Step.segment?
  unrooted : (∀ line, ¬ Lineage steps s line) → t.opts.segmentId = s.opts.segmentId
  written : t.opts.segmentId = s.opts.segmentId ∨
    s.segment? = none ∧ ∃ line name, Lineage steps s line ∧
      line.findSome? Step.segment? = some name ∧ t.opts.segmentId = some name
  rest : t = { s with
    opts := { s.opts with
      isSource := t.opts.isSource
      isFinal := t.opts.isFinal
      segmentId := t.opts.segmentId } }

theorem inherits_mark (relations : List Relation) (h : HasRoot steps top) (hs : s ∈ steps) :
    Inherits steps s (mark relations (visitsFrom steps top) s) where
  nearest line hline := hline.inForce.segment?_mark relations h
  unrooted hnone := by
    rcases segmentId_mark_cases relations h hs with hkept | ⟨-, name, hforce, -⟩
    · exact hkept
    · obtain ⟨line, hline⟩ := rooted_iff_exists_lineage.mp hforce.rooted
      exact absurd hline (hnone line)
  written := by
    rcases segmentId_mark_cases relations h hs with hkept | ⟨huntagged, name, hforce, hwritten⟩
    · exact .inl hkept
    · obtain ⟨line, hline⟩ := rooted_iff_exists_lineage.mp hforce.rooted
      have hnearest : line.findSome? Step.segment? = some name :=
        hline.inForce.unique h.distinct hforce
      exact .inr ⟨huntagged, line, name, hline, hnearest, hwritten⟩
  rest := rfl

/-- The steps come out in the same order, each with the segment that it inherits. -/
theorem segments_are_inherited {found : Outline} {marked : List Step}
    (h : outline steps = .ok (found, marked)) : List.Forall₂ (Inherits steps) steps marked := by
  rcases outline_eq_ok_iff.mp h with ⟨rfl, hempty⟩ | ⟨top, htop, heq⟩
  · rw [(Prod.mk.inj hempty).2]
    exact .nil
  · rw [(Prod.mk.inj heq).2]
    exact List.forall₂_map_right_iff.mpr
      (List.forall₂_same.mpr fun s hs ↦ inherits_mark _ htop hs)

/-- A tree with two tagged branches, and a step that it does not lead to. -/
def branching : List Step := [
  { id := "b1", parentId := some "b" },
  { id := "a", opts := { segmentId := some "everyone", isFinal := true } },
  { id := "b", parentId := some "a", opts := { segmentId := some "" } },
  { id := "c", parentId := some "a", opts := { segmentId := some "admins" } },
  { id := "c1", parentId := some "c", opts := { isSource := true } },
  { id := "d", parentId := some "ghost", opts := { segmentId := some "" } }]

theorem segments_are_inherited_branching :
    ∃ found marked, outline branching = .ok (found, marked) ∧
      marked.map (fun s ↦ (s.id, s.opts.segmentId)) =
        [("b1", some "everyone"), ("a", some "everyone"), ("b", some "everyone"),
          ("c", some "admins"), ("c1", some "admins"), ("d", some "")] ∧
      List.Forall₂ (Inherits branching) branching marked :=
  ⟨_, _, rfl, rfl, segments_are_inherited rfl⟩

end StepTree

end GuidedTours
