import GuidedTours.Proofs.StepTree.Outline
import GuidedTours.StepTree.Request

/-!
Marked steps are a fixed point: working out the outline of marked steps gives the same outline and
leaves the steps as they are. Marking keeps ids and parents, hence what is rooted, and it writes
the segment in force at a rooted step into the step, where the second walk finds it.
-/

set_option autoImplicit false

namespace GuidedTours

namespace StepTree

variable {steps : List Step} {s t top : Step}

theorem InForce.ne_empty {name : String} (h : InForce steps s (some name)) : name ≠ "" := by
  generalize hsegment : some name = segment at h
  induction h with
  | root => exact (named?_eq_some_iff.mp hsegment.symm).2
  | under _ _ _ ih =>
    rcases Option.or_eq_some_iff.mp hsegment.symm with hown | ⟨-, habove⟩
    · exact (named?_eq_some_iff.mp hown).2
    · exact ih habove.symm

theorem HasRoot.map {f : Step → Step} (hid : ∀ s, (f s).id = s.id)
    (hparent : ∀ s, (f s).parent? = s.parent?) (h : HasRoot steps top) :
    HasRoot (steps.map f) (f top) where
  distinct := by
    have hids : (steps.map f).map Step.id = steps.map Step.id := by
      rw [List.map_map]
      exact List.map_congr_left fun s _ ↦ hid s
    exact hids ▸ h.distinct
  parentless := by
    have hnone : (fun s : Step ↦ s.parent?.isNone) ∘ f = fun s ↦ s.parent?.isNone :=
      funext fun s ↦ congrArg Option.isNone (hparent s)
    rw [List.filter_map, hnone, h.parentless, List.map_singleton]

variable {relations : List Relation}

/-- Marking writes the segment in force into a rooted step. -/
theorem InForce.segment?_mark (relations : List Relation) (h : HasRoot steps top)
    {segment : Option String} (hforce : InForce steps s segment) :
    (mark relations (visitsFrom steps top) s).segment? = segment := by
  have hinherited : ((visitsFrom steps top).find? (·.id = s.id)).bind Visit.segment = segment := by
    cases segment with
    | some name => exact (inherited_eq_iff h hforce.mem).mpr hforce
    | none =>
      refine (inherited_eq_none_iff h hforce.mem).mpr fun name hname ↦ ?_
      nomatch hname.unique h.distinct hforce
  have hown : s.segment?.isSome → s.segment? = segment := by
    intro hsome
    cases hforce with
    | root => rfl
    | under => rw [Option.or_of_isSome hsome]
  unfold mark
  simp only [Step.segment?, hinherited]
  split
  · rename_i hsome
    exact hown hsome
  · rename_i hnone
    cases segment with
    | some name => exact named?_eq_some_iff.mpr ⟨rfl, hforce.ne_empty⟩
    | none => simpa [Step.segment?] using hnone

/-- Marking writes no other segments than those in force, and it writes none over a tag. -/
theorem segmentId_mark_cases (relations : List Relation) (h : HasRoot steps top) (hs : s ∈ steps) :
    (mark relations (visitsFrom steps top) s).opts.segmentId = s.opts.segmentId ∨
      s.segment? = none ∧ ∃ name, InForce steps s (some name) ∧
        (mark relations (visitsFrom steps top) s).opts.segmentId = some name := by
  unfold mark
  cases htag : s.segment? with
  | some name => exact .inl rfl
  | none =>
    cases hinherited : ((visitsFrom steps top).find? (·.id = s.id)).bind Visit.segment with
    | none => exact .inl rfl
    | some name => exact .inr ⟨rfl, name, (inherited_eq_iff h hs).mp hinherited, rfl⟩

theorem segment?_mark_of_not_rooted (relations : List Relation) (h : HasRoot steps top)
    (hs : s ∈ steps) (hrooted : ¬ Rooted steps s) :
    (mark relations (visitsFrom steps top) s).segment? = s.segment? := by
  rcases segmentId_mark_cases relations h hs with hkept | ⟨-, name, hforce, -⟩
  · exact congrArg named? hkept
  · exact absurd hforce.rooted hrooted

theorem InForce.mark (relations : List Relation) (h : HasRoot steps top)
    {segment : Option String} (hforce : InForce steps s segment) :
    InForce (steps.map (mark relations (visitsFrom steps top)))
      (mark relations (visitsFrom steps top) s) segment := by
  induction hforce with
  | @root s hs hnone =>
    rw [← (InForce.root hs hnone).segment?_mark relations h]
    exact .root (List.mem_map_of_mem hs) hnone
  | @under s p segment hs hsome hp ih =>
    have hsegment := (InForce.under hs hsome hp).segment?_mark relations h
    have hmarked := InForce.under (List.mem_map_of_mem hs) hsome ih
    rwa [hsegment, Option.or_assoc, Option.or_self] at hmarked

theorem find?_marked {visits : List Visit} {id : String} :
    find? (steps.map (mark relations visits)) id =
      (find? steps id).map (mark relations visits) :=
  List.find?_map

theorem mark_eq_self {visits : List Visit} (hsource : s.opts.isSource = s.parent?.isNone)
    (hfinal : s.opts.isFinal = !relations.any (·.parent = s.id))
    (hsegment : s.segment? = none →
      (visits.find? (·.id = s.id)).bind Visit.segment = none) :
    mark relations visits s = s := by
  have hkept : (if s.segment?.isSome then s.opts.segmentId
      else ((visits.find? (·.id = s.id)).bind Visit.segment).or s.opts.segmentId) =
      s.opts.segmentId := by
    cases htag : s.segment? with
    | some name => simp
    | none => simp [hsegment htag]
  show { s with opts := { s.opts with isSource := _, isFinal := _, segmentId := _ } } = s
  rw [hkept, ← hsource, ← hfinal]

/-- A second marking finds every segment written already. -/
theorem mark_mark (h : HasRoot steps top) (hs : s ∈ steps) :
    mark relations (visitsFrom (steps.map (mark relations (visitsFrom steps top)))
      (mark relations (visitsFrom steps top) top)) (mark relations (visitsFrom steps top) s) =
      mark relations (visitsFrom steps top) s := by
  have hroot := h.map (f := mark relations (visitsFrom steps top)) (fun _ ↦ rfl) fun _ ↦ rfl
  refine mark_eq_self rfl rfl fun huntagged ↦ ?_
  refine (inherited_eq_none_iff hroot (List.mem_map_of_mem hs)).mpr fun name hforce ↦ ?_
  have hlinks : SameLinks steps (steps.map (mark relations (visitsFrom steps top))) :=
    .map (fun _ ↦ rfl) fun _ ↦ rfl
  obtain ⟨t, ht, hid⟩ := hlinks.symm.exists_rooted hforce.rooted
  obtain ⟨segment, hsegment⟩ := (eq_of_id_eq h.distinct ht.mem hs hid ▸ ht).exists_inForce
  have hsame := (hsegment.mark relations h).unique hroot.distinct hforce
  rw [hsegment.segment?_mark relations h, hsame] at huntagged
  simp at huntagged

/-- The marked steps have the same outline, and marking them again changes nothing. -/
theorem outlineBelow_marked (h : HasRoot steps top) {f : Step → Step}
    (hf : f = mark (relationsOf steps (visitsFrom steps top)) (visitsFrom steps top)) :
    outlineBelow (steps.map f) (f top) = outlineBelow steps top := by
  have hid : ∀ s, (f s).id = s.id := fun s ↦ hf ▸ rfl
  have hparent : ∀ s, (f s).parent? = s.parent? := fun s ↦ hf ▸ rfl
  have hroot : HasRoot (steps.map f) (f top) := h.map hid hparent
  have hlinks : SameLinks (steps.map f) steps := (SameLinks.map hid hparent).symm
  have hids : (steps.map f).map Step.id = steps.map Step.id := by
    rw [List.map_map]
    exact List.map_congr_left fun s _ ↦ hid s
  have hmarked : (steps.map f).map (mark (relationsOf steps (visitsFrom steps top))
      (visitsFrom (steps.map f) (f top))) = steps.map f := by
    rw [List.map_map]
    refine List.map_congr_left fun s hs ↦ ?_
    subst hf
    exact mark_mark h hs
  simp only [outlineBelow, hlinks.relationsOf_eq hroot h, hlinks.any_visitsFrom hroot h, hids, hid,
    hmarked]
  rw [← hf]

theorem outline_marked {found : Outline} {marked : List Step}
    (h : outline steps = .ok (found, marked)) : outline marked = .ok (found, marked) := by
  rcases outline_eq_ok_iff.mp h with ⟨-, hempty⟩ | ⟨top, htop, heq⟩
  · rw [(Prod.mk.inj hempty).1, (Prod.mk.inj hempty).2]
    rfl
  · have hmarked : marked = (outlineBelow steps top).2 := congrArg Prod.snd heq
    refine outline_eq_ok_iff.mpr (.inr ⟨mark (relationsOf steps (visitsFrom steps top))
      (visitsFrom steps top) top, ?_, ?_⟩)
    · rw [hmarked]
      exact htop.map (fun _ ↦ rfl) fun _ ↦ rfl
    · rw [heq, hmarked]
      exact (outlineBelow_marked htop rfl).symm

theorem perform_outline_twice (steps : List Step) :
    StepRequest.perform (StepRequest.perform steps .outline).2 .outline =
      StepRequest.perform steps .outline := by
  cases h : outline steps with
  | error e => simp only [StepRequest.perform, h]
  | ok result => simp only [StepRequest.perform, h, outline_marked h]

/-- A second outline is the first one and leaves the marked steps as they are. The same holds of
every later one. -/
theorem outline_is_settled (steps : List Step) :
    (∀ found marked, outline steps = .ok (found, marked) →
      outline marked = .ok (found, marked)) ∧
    ∀ n, StepRequest.perform ((fun l ↦ (StepRequest.perform l .outline).2)^[n + 1] steps) .outline =
      StepRequest.perform steps .outline := by
  refine ⟨fun _ _ ↦ outline_marked, fun n ↦ ?_⟩
  rw [Function.iterate_succ_apply,
    Function.iterate_fixed (congrArg Prod.snd (perform_outline_twice steps)) n,
    perform_outline_twice]

/-- A tagged root with a step below it, two steps that are each other's parents, and one whose
parent is missing. -/
def scattered : List Step := [
  { id := "a1", parentId := some "a", opts := { isSource := true, segmentId := some "" } },
  { id := "a", opts := { segmentId := some "everyone" } },
  { id := "b", parentId := some "c", opts := { segmentId := some "admins" } },
  { id := "c", parentId := some "b" },
  { id := "d", parentId := some "ghost", opts := { segmentId := some "" } }]

theorem outline_is_settled_scattered :
    ∃ found marked, outline scattered = .ok (found, marked) ∧
      found.unreachable = ["b", "c", "d"] ∧ marked ≠ scattered ∧
      outline marked = .ok (found, marked) :=
  ⟨_, _, rfl, rfl, by decide, (outline_is_settled scattered).1 _ _ rfl⟩

end StepTree

end GuidedTours
