import GuidedTours.Proofs.StepTree.Edit

/-!
An insertion and a deletion cancel. Splicing a step in moves one step below it, the first that stood
beside it, and no step waited for the new one before; so the moved step is its only child, which
every policy moves back up. The list may hold anything: ids may repeat, and there may be several
roots or none.
-/

set_option autoImplicit false

namespace GuidedTours

/-- An empty parent is not kept as a text. -/
def Step.dropEmptyParent (s : Step) : Step :=
  if s.parentId = some "" then { s with parentId := none } else s

namespace StepTree

variable {steps : List Step} {s incoming : Step}

theorem insert_of_known (h : ∀ p, incoming.parent? = some p → ∃ t ∈ steps, t.id = p) :
    insert steps incoming = .ok (modifyFirst (·.parent? = incoming.parent?)
      (Step.setParent (some incoming.id)) steps ++ [incoming]) := by
  have hknown : (incoming.parent?.filter fun p ↦ (find? steps p).isNone) = none := by
    refine Option.filter_eq_none_iff.mpr fun p hp ↦ ?_
    have hsome : (find? steps p).isSome := find?_isSome_iff.mpr (h p hp)
    simpa using Option.isSome_iff_ne_none.mp hsome
  rw [insert, hknown]

theorem upsert_of_new (hblank : ¬ Text.isBlankText incoming.id)
    (hnew : ∀ s ∈ steps, s.id ≠ incoming.id) :
    upsert steps incoming = insert steps incoming := by
  have hnone : find? steps incoming.id = none := find?_eq_none_iff.mpr hnew
  rw [upsert, if_neg hblank, hnone, if_neg (by simp)]

theorem eraseP_append_self (hnew : ∀ s ∈ steps, s.id ≠ incoming.id) :
    (steps ++ [incoming]).eraseP (·.id = incoming.id) = steps := by
  rw [List.eraseP_append_right _ (by simpa using hnew), List.eraseP_cons_of_pos (by simp),
    List.append_nil]

/-- Moved down and up again, a step names its former parent, unless that was the empty text. -/
theorem setParent_of_parent? (h : s.parent? = incoming.parent?) :
    (s.setParent (some incoming.id)).setParent incoming.parent? =
      if incoming.parent? = none then s.dropEmptyParent else s := by
  have hback : (s.setParent (some incoming.id)).setParent incoming.parent? =
      { s with parentId := s.parent? } := by
    rw [Step.setParent, named?_parent?, ← h]
    rfl
  rw [hback, ← h]
  obtain ⟨id, parentId, data, opts⟩ := s
  cases parentId with
  | none => rfl
  | some p => by_cases hp : p = "" <;> simp [Step.parent?, named?, Step.dropEmptyParent, hp]

/-- Moved down and up again, the first step beside the new one is as it was, but for an empty
parent. -/
theorem modifyFirst_down_and_up : modifyFirst (·.parent? = incoming.parent?)
    (fun s ↦ (s.setParent (some incoming.id)).setParent incoming.parent?) steps =
    if incoming.parent? = none then modifyFirst (·.parent? = none) Step.dropEmptyParent steps
    else steps := by
  have hback : ∀ s ∈ steps, decide (s.parent? = incoming.parent?) →
      (s.setParent (some incoming.id)).setParent incoming.parent? =
        if incoming.parent? = none then s.dropEmptyParent else s :=
    fun s _ hs ↦ setParent_of_parent? (of_decide_eq_true hs)
  rw [modifyFirst_congr hback]
  split
  next hroot => rw [hroot]
  next => exact modifyFirst_of_forall fun _ _ _ ↦ rfl

/-- Inserting a step that no step waits for and deleting it again, under either policy, gives the
step back and leaves the list as it was. Only the first of the roots, if the step was spliced in
above it, loses an empty parent. -/
theorem deletion_undoes_insertion (hblank : ¬ Text.isBlankText incoming.id)
    (hnew : ∀ s ∈ steps, s.id ≠ incoming.id) (hfree : ∀ s ∈ steps, s.parent? ≠ some incoming.id)
    (hknown : ∀ p, incoming.parent? = some p → ∃ t ∈ steps, t.id = p) :
    ∃ result, upsert steps incoming = .ok result ∧
      ∀ policy, delete policy incoming.id result = some (incoming,
        if incoming.parent? = none then modifyFirst (·.parent? = none) Step.dropEmptyParent steps
        else steps) := by
  generalize hspliced : modifyFirst (·.parent? = incoming.parent?)
    (Step.setParent (some incoming.id)) steps = spliced
  have hinsert : upsert steps incoming = .ok (spliced ++ [incoming]) := by
    rw [upsert_of_new hblank hnew, insert_of_known hknown, hspliced]
  have hkept : ∀ s ∈ spliced, s.id ≠ incoming.id := fun s hs ↦
    id_ne_of_mem_spliced hnew (hspliced ▸ hs)
  have hnamed : incoming.id ≠ "" := ne_empty_of_not_blank hblank
  have hothers : ∀ s ∈ steps, ¬ decide (s.parent? = some incoming.id) := by simpa using hfree
  have hmoved : ∀ s ∈ steps, decide (s.parent? = incoming.parent?) →
      decide ((s.setParent (some incoming.id)).parent? = some incoming.id) := by
    intro s _ _
    simpa [named?_eq_some_iff] using hnamed
  refine ⟨_, hinsert, fun policy ↦ ?_⟩
  rw [delete, find?_append_self hkept, eraseP_append_self hkept, ← modifyFirst_down_and_up]
  cases policy with
  | reconnectFirst =>
    have hfirst := modifyFirst_modifyFirst (g := Step.setParent incoming.parent?) hothers hmoved
    rw [hspliced] at hfirst
    exact congrArg (fun rest ↦ some (incoming, rest)) hfirst
  | reconnectAll =>
    have hall := map_modifyFirst_again (g := Step.setParent incoming.parent?) hothers hmoved
    rw [hspliced] at hall
    simp only [decide_eq_true_eq] at hall
    exact congrArg (fun rest ↦ some (incoming, rest)) hall

/-- Two roots, of which the first has the empty text as its parent, a circle, and an id that
repeats. -/
def unruly : List Step := [
  { id := "a", parentId := some "b" }, { id := "b", parentId := some "a" },
  { id := "c", parentId := some "" }, { id := "d" }, { id := "a", parentId := some "c" }]

theorem deletion_undoes_insertion_unruly :
    ∃ result, upsert unruly { id := "e" } = .ok result ∧
      ∀ policy, delete policy "e" result = some ({ id := "e" }, [
        { id := "a", parentId := some "b" }, { id := "b", parentId := some "a" },
        { id := "c" }, { id := "d" }, { id := "a", parentId := some "c" }]) :=
  deletion_undoes_insertion (by decide) (by decide) (by decide) (by decide)

end StepTree

end GuidedTours
