import GuidedTours.Editor.Update
import GuidedTours.Proofs.Attempts
import GuidedTours.Proofs.StepTree.Edit
import GuidedTours.Proofs.StepTree.Outline

/-!
Faulty references in a step list: blank ids, and parents that no step of the list has. Steps that
are replaced, moved, inserted or marked bring in neither; a step that is deleted may leave its id
behind as the parent of others. So of all that an update does to the steps only its deletions can
leave a reference dangling.
-/

set_option autoImplicit false

namespace GuidedTours

namespace StepTree

variable {steps result : List Step} {s incoming : Step} {id p : String}

/-- Some step has the parent, but no step of the list is it. -/
def Dangling (steps : List Step) (p : String) : Prop :=
  (∃ s ∈ steps, s.parent? = some p) ∧ ∀ t ∈ steps, t.id ≠ p

/-- A blank id or a dangling parent in the resulting list is one of the list before. -/
structure AddsNoFault (steps result : List Step) : Prop where
  blank : ∀ s ∈ result, Text.isBlankText s.id → ∃ t ∈ steps, t.id = s.id
  dangling : ∀ p, Dangling result p → Dangling steps p

namespace AddsNoFault

theorem refl (steps : List Step) : AddsNoFault steps steps :=
  ⟨fun s hs _ ↦ ⟨s, hs, rfl⟩, fun _ hp ↦ hp⟩

theorem trans {later : List Step} (h : AddsNoFault steps result)
    (h' : AddsNoFault result later) : AddsNoFault steps later := by
  refine ⟨fun s hs hblank ↦ ?_, fun p hp ↦ h.dangling p (h'.dangling p hp)⟩
  obtain ⟨t, ht, hid⟩ := h'.blank s hs hblank
  rw [← hid] at hblank ⊢
  exact h.blank t ht hblank

/-- What there is to show if no step is taken out: every new parent is one of the steps. -/
theorem of_kept (hids : ∀ t ∈ steps, ∃ r ∈ result, r.id = t.id)
    (hblank : ∀ s ∈ result, Text.isBlankText s.id → ∃ t ∈ steps, t.id = s.id)
    (hparents : ∀ s ∈ result, ∀ p, s.parent? = some p →
      (∃ t ∈ steps, t.parent? = some p) ∨ ∃ r ∈ result, r.id = p) : AddsNoFault steps result := by
  refine ⟨hblank, fun p hp ↦ ?_⟩
  obtain ⟨⟨s, hs, hparent⟩, hnone⟩ := hp
  rcases hparents s hs p hparent with hbefore | ⟨r, hr, hid⟩
  · refine ⟨hbefore, fun t ht htid ↦ ?_⟩
    obtain ⟨r, hr, hrid⟩ := hids t ht
    exact hnone r hr (hrid.trans htid)
  · exact absurd hid (hnone r hr)

theorem of_same_ids (hids : result.map Step.id = steps.map Step.id)
    (hparents : ∀ s ∈ result, ∀ p, s.parent? = some p →
      (∃ t ∈ steps, t.parent? = some p) ∨ ∃ t ∈ steps, t.id = p) : AddsNoFault steps result := by
  have hsame : ∀ id, (∃ r ∈ result, r.id = id) ↔ ∃ t ∈ steps, t.id = id := by
    intro id
    rw [← List.mem_map, hids, List.mem_map]
  refine of_kept (fun t ht ↦ (hsame t.id).mpr ⟨t, ht, rfl⟩)
    (fun s hs _ ↦ (hsame s.id).mp ⟨s, hs, rfl⟩) fun s hs p hparent ↦ ?_
  exact (hparents s hs p hparent).imp_right (hsame p).mpr

theorem replace {data : StepData} {parent : Option String}
    (h : replace steps id data parent = .ok result) : AddsNoFault steps result := by
  rcases (replace_cases h).2 with rfl | ⟨p, hp, hexists, -, rfl⟩
  · refine of_same_ids (map_modifyFirst fun _ _ ↦ rfl) fun s hs p hparent ↦ .inl ?_
    rcases mem_modifyFirst hs with hs | ⟨old, hold, -, rfl⟩
    · exact ⟨s, hs, hparent⟩
    · exact ⟨old, hold, hparent⟩
  · refine of_same_ids (map_modifyFirst fun _ _ ↦ rfl) fun s hs q hparent ↦ ?_
    rcases mem_modifyFirst hs with hs | ⟨old, -, -, rfl⟩
    · exact .inl ⟨s, hs, hparent⟩
    · have hmoved : named? (some p) = some q := (Step.parent?_setParent _ old).symm.trans hparent
      obtain rfl : p = q := Option.some.inj (named?_eq_some_iff.mp hmoved).1
      exact .inr hexists

theorem insert (hid : ¬ Text.isBlankText incoming.id)
    (h : StepTree.insert steps incoming = .ok result) : AddsNoFault steps result := by
  obtain ⟨hparents, rfl⟩ := insert_cases h
  have hspliced : (modifyFirst (·.parent? = incoming.parent?)
      (Step.setParent (some incoming.id)) steps).map Step.id = steps.map Step.id :=
    map_modifyFirst fun s _ ↦ Step.id_setParent _ s
  have hids : ∀ t ∈ steps, ∃ r ∈ modifyFirst (·.parent? = incoming.parent?)
      (Step.setParent (some incoming.id)) steps ++ [incoming], r.id = t.id := by
    intro t ht
    obtain ⟨r, hr, hrid⟩ := List.mem_map.mp (hspliced ▸ List.mem_map_of_mem ht)
    exact ⟨r, List.mem_append_left _ hr, hrid⟩
  refine of_kept hids (fun s hs hblank ↦ ?_) fun s hs p hparent ↦ ?_
  · rcases List.mem_append.mp hs with hs | hs
    · exact List.mem_map.mp (hspliced ▸ List.mem_map_of_mem hs)
    · obtain rfl := List.mem_singleton.mp hs
      exact absurd hblank hid
  · rcases List.mem_append.mp hs with hs | hs
    · rcases mem_modifyFirst hs with hs | ⟨old, -, -, rfl⟩
      · exact .inl ⟨s, hs, hparent⟩
      · have hmoved : named? (some incoming.id) = some p :=
          (Step.parent?_setParent _ old).symm.trans hparent
        exact .inr ⟨incoming, List.mem_append_right _ (List.mem_singleton_self _),
          Option.some.inj (named?_eq_some_iff.mp hmoved).1⟩
    · obtain rfl := List.mem_singleton.mp hs
      obtain ⟨t, ht, rfl⟩ := hparents p hparent
      exact .inr (hids t ht)

theorem upsert (h : StepTree.upsert steps incoming = .ok result) : AddsNoFault steps result := by
  obtain ⟨hid, ⟨-, hreplace⟩ | ⟨-, hinsert⟩⟩ := upsert_cases h
  · exact .replace hreplace
  · exact .insert hid hinsert

theorem outline {found : Outline} (h : StepTree.outline steps = .ok (found, result)) :
    AddsNoFault steps result := by
  rcases outline_eq_ok_iff.mp h with ⟨rfl, hempty⟩ | ⟨top, -, heq⟩
  · rw [(Prod.mk.inj hempty).2]
    exact refl []
  · obtain rfl : result = _ := congrArg Prod.snd heq
    refine of_same_ids map_id_marked fun s hs p hparent ↦ .inl ?_
    obtain ⟨t, ht, rfl⟩ := List.mem_map.mp hs
    exact ⟨t, ht, hparent⟩

end AddsNoFault

/-- A deletion may leave the id of the deleted step as a parent, and no other. -/
theorem dangling_delete {policy : DeletePolicy} {removed : Step}
    (h : delete policy id steps = some (removed, result)) (hp : Dangling result p) :
    Dangling steps p ∨ p = id := by
  obtain ⟨hremoved, -, hids, hparents⟩ := delete_cases h
  obtain ⟨⟨s, hs, hparent⟩, hnone⟩ := hp
  have hbefore : ∃ t ∈ steps, t.parent? = some p := by
    obtain ⟨t, ht, hkept | hmoved⟩ := hparents s hs
    · exact ⟨t, ht, hkept.symm.trans hparent⟩
    · exact ⟨removed, hremoved, hmoved.symm.trans hparent⟩
  by_cases hknown : ∃ t ∈ steps, t.id = p
  · obtain ⟨t, ht, rfl⟩ := hknown
    refine .inr (by_contra fun hne ↦ ?_)
    have hkept : t ∈ steps.eraseP (·.id = id) :=
      (List.mem_eraseP_of_neg (by simpa using hne)).mpr ht
    obtain ⟨r, hr, hrid⟩ := List.mem_map.mp (hids ▸ List.mem_map_of_mem hkept)
    exact hnone r hr hrid
  · exact .inl ⟨hbefore, fun t ht hid ↦ hknown ⟨t, ht, hid⟩⟩

theorem delete_faults (policy : DeletePolicy) (id : String) (steps : List Step) :
    let rest := ((delete policy id steps).map Prod.snd).getD steps
    (∀ s ∈ rest, ∃ t ∈ steps, t.id = s.id) ∧
      ∀ p, Dangling rest p → Dangling steps p ∨ p = id ∧ ∃ t ∈ steps, t.id = p := by
  cases hdelete : delete policy id steps with
  | none => exact ⟨fun s hs ↦ ⟨s, hs, rfl⟩, fun p hp ↦ .inl hp⟩
  | some found =>
    obtain ⟨hremoved, hid, hids, -⟩ := delete_cases hdelete
    refine ⟨fun s hs ↦ ?_, fun p hp ↦ ?_⟩
    · obtain ⟨t, ht, htid⟩ := List.mem_map.mp (hids ▸ List.mem_map_of_mem hs)
      exact ⟨t, List.mem_of_mem_eraseP ht, htid⟩
    · refine (dangling_delete hdelete hp).imp_right fun hpid ↦ ⟨hpid, found.1, hremoved, ?_⟩
      exact hid.trans hpid.symm

/-- Deletions leave ids of deleted steps as parents, and no others. -/
theorem deleteSteps_faults (policy : DeletePolicy) (steps : List Step) (ids : List String) :
    (∀ s ∈ deleteSteps policy steps ids, ∃ t ∈ steps, t.id = s.id) ∧
      ∀ p, Dangling (deleteSteps policy steps ids) p →
        Dangling steps p ∨ p ∈ ids ∧ ∃ t ∈ steps, t.id = p := by
  induction ids generalizing steps with
  | nil => exact ⟨fun s hs ↦ ⟨s, hs, rfl⟩, fun p hp ↦ .inl hp⟩
  | cons id ids ih =>
    obtain ⟨hids, hdangling⟩ := delete_faults policy id steps
    obtain ⟨hrestIds, hrest⟩ := ih (((delete policy id steps).map Prod.snd).getD steps)
    refine ⟨fun s hs ↦ ?_, fun p hp ↦ ?_⟩
    · obtain ⟨t, ht, htid⟩ := hrestIds s hs
      obtain ⟨r, hr, hrid⟩ := hids t ht
      exact ⟨r, hr, hrid.trans htid⟩
    · rcases hrest p hp with hbefore | ⟨hmem, t, ht, rfl⟩
      · refine (hdangling p hbefore).imp_right fun ⟨hpid, hknown⟩ ↦ ⟨?_, hknown⟩
        exact hpid ▸ List.mem_cons_self
      · exact .inr ⟨List.mem_cons_of_mem id hmem, hids t ht⟩

theorem AddsNoFault.upsertSteps {incoming : List Step}
    (h : upsertSteps steps incoming = .ok result) : AddsNoFault steps result :=
  foldlM_ok (P := AddsNoFault steps) (fun _ _ _ hbefore hstep ↦ hbefore.trans (.upsert hstep))
    (.refl steps) h

end StepTree

/-- Of all that an update does to the steps only its deletions can leave a reference dangling. -/
theorem FlowUpdate.faults_steps {u : FlowUpdate} {policy : DeletePolicy} {steps result : List Step}
    (h : u.steps policy steps = .ok result) :
    (∀ s ∈ result, Text.isBlankText s.id → ∃ t ∈ steps, t.id = s.id) ∧
      ∀ p, StepTree.Dangling result p → StepTree.Dangling steps p ∨
        p ∈ u.deletedSteps ∧ ∃ t ∈ steps, t.id = p := by
  have hupserts := StepTree.AddsNoFault.upsertSteps h
  obtain ⟨hids, hdeletions⟩ := StepTree.deleteSteps_faults policy steps u.deletedSteps
  refine ⟨fun s hs hblank ↦ ?_, fun p hp ↦ hdeletions p (hupserts.dangling p hp)⟩
  obtain ⟨t, ht, hid⟩ := hupserts.blank s hs hblank
  obtain ⟨r, hr, hrid⟩ := hids t ht
  exact ⟨r, hr, hrid.trans hid⟩

end GuidedTours
