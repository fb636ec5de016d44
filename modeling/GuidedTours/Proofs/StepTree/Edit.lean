import GuidedTours.Proofs.Lists
import GuidedTours.Proofs.StepTree.Reach

/-!
What an edit of a step list can do: one lemma for each of the edits, with everything that the edit
has checked and the list that it leaves.
-/

set_option autoImplicit false

namespace GuidedTours

namespace StepTree

variable {steps result : List Step} {s removed incoming : Step} {id : String} {data : StepData}
variable {parent : Option String}

theorem named?_parent? : named? s.parent? = s.parent? := named?_named? s.parentId

theorem checkMove_eq_ok_iff {p : String} :
    checkMove steps id p = .ok () ↔ (find? steps p).isSome ∧ ¬ isAncestor steps id p := by
  unfold checkMove
  cases hfind : find? steps p with
  | none => simp
  | some t => by_cases hancestor : isAncestor steps id p <;> simp [hancestor]

/-- A replaced step keeps its parent or moves below a step that is not below it. -/
theorem replace_cases (h : replace steps id data parent = .ok result) :
    (∃ s ∈ steps, s.id = id) ∧
      (result = modifyFirst (·.id = id) (fun s ↦ { s with data }) steps ∨
        ∃ p, named? parent = some p ∧ (∃ t ∈ steps, t.id = p) ∧ ¬ isAncestor steps id p ∧
          result = modifyFirst (·.id = id) (fun s ↦ { s.setParent (some p) with data }) steps) := by
  unfold replace at h
  cases hfind : find? steps id with
  | none => simp [hfind] at h
  | some current =>
    simp only [hfind] at h
    refine ⟨find?_isSome_iff.mp (by rw [hfind]; rfl), ?_⟩
    cases hmove : (named? parent).filter (current.parent? ≠ some ·) with
    | none =>
      rw [hmove] at h
      exact .inl (Except.ok.inj h).symm
    | some p =>
      simp only [hmove] at h
      obtain ⟨hparent, -⟩ := Option.filter_eq_some_iff.mp hmove
      cases hcheck : checkMove steps id p with
      | error e => simp [hcheck, Except.map] at h
      | ok _ =>
        rw [hcheck] at h
        obtain ⟨hsome, hancestor⟩ := checkMove_eq_ok_iff.mp hcheck
        exact .inr ⟨p, hparent, find?_isSome_iff.mp hsome, hancestor, (Except.ok.inj h).symm⟩

theorem ne_empty_of_not_blank (hblank : ¬ Text.isBlankText id) : id ≠ "" := by
  rintro rfl
  exact hblank rfl

/-- An inserted step comes last, and the first step with its parent moves below it. -/
theorem insert_cases (h : insert steps incoming = .ok result) :
    (∀ p, incoming.parent? = some p → ∃ t ∈ steps, t.id = p) ∧
      result = modifyFirst (·.parent? = incoming.parent?)
        (Step.setParent (some incoming.id)) steps ++ [incoming] := by
  unfold insert at h
  cases hunknown : incoming.parent?.filter fun p ↦ (find? steps p).isNone with
  | some p => simp [hunknown] at h
  | none =>
    rw [hunknown] at h
    refine ⟨fun p hp ↦ ?_, (Except.ok.inj h).symm⟩
    have hknown : (find? steps p).isSome :=
      Option.isSome_iff_ne_none.mpr (by simpa [hp, Option.filter_eq_none_iff] using hunknown)
    exact find?_isSome_iff.mp hknown

/-- The step that comes last is found under its id if that is its own. -/
theorem find?_append_self (hnew : ∀ s ∈ steps, s.id ≠ incoming.id) :
    find? (steps ++ [incoming]) incoming.id = some incoming := by
  have hnone : steps.find? (·.id = incoming.id) = none := find?_eq_none_iff.mpr hnew
  simp [find?, List.find?_append, hnone]

theorem id_ne_of_mem_spliced {p : Step → Bool} (hnew : ∀ t ∈ steps, t.id ≠ id)
    (hs : s ∈ modifyFirst p (Step.setParent parent) steps) : s.id ≠ id := by
  rcases mem_modifyFirst hs with hs | ⟨t, ht, -, rfl⟩
  · exact hnew s hs
  · exact hnew t ht

theorem upsert_cases (h : upsert steps incoming = .ok result) :
    ¬ Text.isBlankText incoming.id ∧
      ((∃ s ∈ steps, s.id = incoming.id) ∧
          replace steps incoming.id incoming.data incoming.parent? = .ok result ∨
        (∀ s ∈ steps, s.id ≠ incoming.id) ∧ insert steps incoming = .ok result) := by
  unfold upsert at h
  by_cases hblank : Text.isBlankText incoming.id
  · simp [hblank] at h
  · rw [if_neg hblank] at h
    refine ⟨hblank, ?_⟩
    by_cases hknown : (find? steps incoming.id).isSome
    · rw [if_pos hknown] at h
      exact .inl ⟨find?_isSome_iff.mp hknown, h⟩
    · rw [if_neg hknown] at h
      exact .inr ⟨find?_eq_none_iff.mp (by simpa using hknown), h⟩

/-- A deletion leaves the other steps under their ids. Each of them keeps its parent or gets that
of the deleted one. -/
theorem delete_cases {policy : DeletePolicy} (h : delete policy id steps = some (removed, result)) :
    removed ∈ steps ∧ removed.id = id ∧
      result.map Step.id = (steps.eraseP (·.id = id)).map Step.id ∧
      ∀ s ∈ result, ∃ t ∈ steps, s.parent? = t.parent? ∨ s.parent? = removed.parent? := by
  obtain ⟨other, hfind, heq⟩ := Option.map_eq_some_iff.mp h
  obtain ⟨rfl, rfl⟩ := Prod.mk.inj heq
  refine ⟨List.mem_of_find?_eq_some hfind, by simpa using List.find?_some hfind, ?_⟩
  cases policy with
  | reconnectFirst =>
    refine ⟨map_modifyFirst fun _ _ ↦ rfl, fun s hs ↦ ?_⟩
    rcases mem_modifyFirst hs with hs | ⟨t, ht, -, rfl⟩
    · exact ⟨s, List.mem_of_mem_eraseP hs, .inl rfl⟩
    · exact ⟨t, List.mem_of_mem_eraseP ht, .inr ((Step.parent?_setParent _ t).trans named?_parent?)⟩
  | reconnectAll =>
    constructor
    · rw [List.map_map]
      refine List.map_congr_left fun t _ ↦ ?_
      show (if t.parent? = some id then t.setParent other.parent? else t).id = t.id
      split <;> rfl
    · intro s hs
      obtain ⟨t, ht, rfl⟩ := List.mem_map.mp hs
      refine ⟨t, List.mem_of_mem_eraseP ht, ?_⟩
      split
      next => exact .inr ((Step.parent?_setParent _ t).trans named?_parent?)
      next => exact .inl rfl

/-- What becomes of another step when all children of a deleted one move up. -/
def raised (removed s : Step) : Step :=
  if s.parent? = some removed.id then s.setParent removed.parent? else s

@[simp] theorem id_raised (removed s : Step) : (raised removed s).id = s.id := by
  unfold raised
  split <;> rfl

@[simp] theorem parent?_raised (removed s : Step) : (raised removed s).parent? =
    if s.parent? = some removed.id then removed.parent? else s.parent? := by
  unfold raised
  split
  · rw [Step.parent?_setParent, named?_parent?]
  · rfl

/-- The other steps, with all children of the deleted one moved up. -/
def contracted (steps : List Step) (removed : Step) : List Step :=
  (steps.filter (·.id ≠ removed.id)).map (raised removed)

theorem map_id_contracted : (contracted steps removed).map Step.id =
    (steps.map Step.id).filter (· ≠ removed.id) := by
  rw [contracted, List.map_map, List.filter_map]
  exact List.map_congr_left fun s _ ↦ id_raised removed s

theorem id_ne_of_mem_contracted (h : s ∈ contracted steps removed) : s.id ≠ removed.id := by
  obtain ⟨t, ht, rfl⟩ := List.mem_map.mp h
  simpa using (List.mem_filter.mp ht).2

theorem delete_reconnectAll_eq_some_iff (distinct : (steps.map Step.id).Nodup) :
    delete .reconnectAll id steps = some (removed, result) ↔
      removed ∈ steps ∧ removed.id = id ∧ result = contracted steps removed := by
  simp only [delete, Option.map_eq_some_iff, Prod.mk.injEq,
    find?_eq_some_iff_of_distinct distinct, eraseP_key_eq_filter distinct]
  constructor
  · intro hfound
    obtain ⟨t, ⟨ht, rfl⟩, rfl, rfl⟩ := hfound
    exact ⟨ht, rfl, rfl⟩
  · intro hresult
    obtain ⟨hremoved, rfl, rfl⟩ := hresult
    exact ⟨removed, ⟨hremoved, rfl⟩, rfl, rfl⟩

end StepTree

end GuidedTours
