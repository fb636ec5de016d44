import GuidedTours.Proofs.StepTree.Acyclic

/-!
Taking one id out of the ways up. If what named an id as its parent goes up to the parent of that id
instead, each way up only loses the id where it met it, so of any two other ids the one is above the
other exactly if it was before. A deletion that moves all children up takes an id out like this, and
an insertion is the same read backwards: the spliced step is what the old list has lost. Nothing is
assumed but distinct ids; ways may run in circles, and parents may be missing.
-/

set_option autoImplicit false

namespace GuidedTours

namespace StepTree

variable {steps long short result : List Step} {removed incoming : Step}
variable {id x y : String} {path : List String}

/-- The short list has lost an id, and what named it as its parent has gone up to its parent. -/
structure Contracts (long short : List Step) (id : String) : Prop where
  gone : parentOf short id = none
  others : ∀ other ≠ id, parentOf short other =
    if parentOf long other = some id then parentOf long id else parentOf long other

namespace Contracts

/-- What is above an id in the long list is above it in the short one. If the id is the lost one,
it is above the parent of it, and that is another id: nothing else is above one that is its own
parent. -/
theorem isAncestor_short (h : Contracts long short id) (hx : x ≠ id) (hway : Way long x y path) :
    (y ≠ id → isAncestor short x y) ∧
      (y = id → ∃ p ≠ id, parentOf long id = some p ∧ isAncestor short x p) := by
  induction hway with
  | here => exact ⟨fun _ ↦ isAncestor_self, fun hid ↦ absurd hid hx⟩
  | @up y parent path hparent _ ih =>
    constructor
    · intro hy
      by_cases hlost : parent = id
      · subst hlost
        obtain ⟨p, -, habove, hancestor⟩ := ih.2 rfl
        have hmoved : parentOf short y = some p := by rw [h.others y hy, if_pos hparent, habove]
        exact (isAncestor_of_parentOf hmoved).mpr (.inr hancestor)
      · have hkept : parentOf short y = some parent := by
          rw [h.others y hy, hparent, if_neg (by simpa using hlost)]
        exact (isAncestor_of_parentOf hkept).mpr (.inr (ih.1 hlost))
    · rintro rfl
      by_cases hlost : parent = y
      · exact ih.2 hlost
      · exact ⟨parent, hlost, hparent, ih.1 hlost⟩

theorem isAncestor_long (h : Contracts long short id) (hway : Way short x y path) :
    isAncestor long x y := by
  induction hway with
  | here => exact isAncestor_self
  | @up y parent path hparent _ ih =>
    have hy : y ≠ id := by
      rintro rfl
      simp [h.gone] at hparent
    rw [h.others y hy] at hparent
    split at hparent
    next hlost =>
      have hancestor : isAncestor long x id := (isAncestor_of_parentOf hparent).mpr (.inr ih)
      exact (isAncestor_of_parentOf hlost).mpr (.inr hancestor)
    next => exact (isAncestor_of_parentOf hparent).mpr (.inr ih)

theorem isAncestor_eq (h : Contracts long short id) (hx : x ≠ id) (hy : y ≠ id) :
    isAncestor short x y = isAncestor long x y := by
  rw [Bool.eq_iff_iff]
  constructor
  · intro hshort
    obtain ⟨path, hway⟩ := isAncestor_iff_exists_way.mp hshort
    exact h.isAncestor_long hway
  · intro hlong
    obtain ⟨path, hway⟩ := isAncestor_iff_exists_way.mp hlong
    exact (h.isAncestor_short hx hway).1 hy

end Contracts

theorem delete_reconnectAll_of_mem (distinct : (steps.map Step.id).Nodup)
    (h : removed ∈ steps) :
    delete .reconnectAll removed.id steps = some (removed, contracted steps removed) :=
  (delete_reconnectAll_eq_some_iff distinct).mpr ⟨h, rfl, rfl⟩

/-- A deletion that moves all children up takes the deleted id out. -/
theorem contracts_contracted (distinct : (steps.map Step.id).Nodup) (h : removed ∈ steps) :
    Contracts steps (contracted steps removed) removed.id := by
  constructor
  · exact parentOf_of_forall_ne fun s ↦ id_ne_of_mem_contracted
  · intro other hother
    have hkept : ∀ s : Step, decide (s.id = other) → decide (s.id ≠ removed.id) := by
      intro s hs
      simpa [of_decide_eq_true hs] using hother
    have hfind : find? (contracted steps removed) other =
        (find? steps other).map (raised removed) := by
      simp only [contracted, find?, List.find?_map, Function.comp_def, id_raised,
        find?_filter_of_forall hkept]
    rw [parentOf_of_mem distinct h, parentOf, parentOf, hfind]
    cases find? steps other with
    | none => rfl
    | some s => exact parent?_raised removed s

/-- An insertion puts an id in that the old list lacks. -/
theorem contracts_insert (distinct : (steps.map Step.id).Nodup) (hnamed : incoming.id ≠ "")
    (hnew : ∀ s ∈ steps, s.id ≠ incoming.id) (hfree : ∀ s ∈ steps, s.parent? ≠ some incoming.id)
    (h : insert steps incoming = .ok result) : Contracts result steps incoming.id := by
  have hunnamed : ∀ other, parentOf steps other ≠ some incoming.id := by
    intro other hparent
    obtain ⟨s, hs, -, hsome⟩ := exists_mem_of_parentOf hparent
    exact hfree s hs hsome
  refine ⟨parentOf_of_forall_ne hnew, fun other hother ↦ ?_⟩
  obtain ⟨hself, hkept | ⟨sibling, hmem, hbeside, hspliced, hkept⟩⟩ :=
    insert_parents distinct hnamed hnew h
  · rw [hkept other hother, if_neg (hunnamed other)]
  · by_cases hsibling : other = sibling.id
    · rw [hsibling, if_pos hspliced, hself, parentOf_of_mem distinct hmem, hbeside]
    · rw [hkept other hother hsibling, if_neg (hunnamed other)]

/-- Deleting a step whose children all move up, and inserting one that no step waits for, leave the
order of ancestors among the other steps as it was. -/
theorem ancestry_is_kept (distinct : (steps.map Step.id).Nodup) :
    (∀ s ∈ steps, ∃ rest, delete .reconnectAll s.id steps = some (s, rest) ∧
      ∀ x ∈ steps, ∀ y ∈ steps, x.id ≠ s.id → y.id ≠ s.id →
        isAncestor rest x.id y.id = isAncestor steps x.id y.id) ∧
    ∀ incoming result, upsert steps incoming = .ok result →
      (∀ s ∈ steps, s.id ≠ incoming.id) → (∀ s ∈ steps, s.parent? ≠ some incoming.id) →
      ∀ x ∈ steps, ∀ y ∈ steps, isAncestor result x.id y.id = isAncestor steps x.id y.id := by
  constructor
  · intro s hs
    exact ⟨_, delete_reconnectAll_of_mem distinct hs, fun x _ y _ hx hy ↦
      (contracts_contracted distinct hs).isAncestor_eq hx hy⟩
  · intro incoming result hupsert hnew hfree x hx y hy
    obtain ⟨hblank, ⟨⟨s, hs, hid⟩, -⟩ | ⟨-, hinsert⟩⟩ := upsert_cases hupsert
    · exact absurd hid (hnew s hs)
    · have hnamed : incoming.id ≠ "" := ne_empty_of_not_blank hblank
      have hcontracts := contracts_insert distinct hnamed hnew hfree hinsert
      exact (hcontracts.isAncestor_eq (hnew x hx) (hnew y hy)).symm

/-- A root with two steps below it in a row, two steps that are each other's parents, one that is
its own parent, and one whose parent is missing. -/
def tangled : List Step := [
  { id := "a" }, { id := "b", parentId := some "a" }, { id := "c", parentId := some "b" },
  { id := "d", parentId := some "e" }, { id := "e", parentId := some "d" },
  { id := "f", parentId := some "f" }, { id := "g", parentId := some "ghost" }]

theorem ancestry_is_kept_tangled :
    (tangled.map Step.id).Nodup ∧
    (∃ rest, delete .reconnectAll "b" tangled = some ({ id := "b", parentId := some "a" }, rest) ∧
      isAncestor rest "a" "c" = isAncestor tangled "a" "c" ∧
      isAncestor rest "e" "d" = isAncestor tangled "e" "d") ∧
    ∃ result, upsert tangled { id := "h", parentId := some "d" } = .ok result ∧
      isAncestor result "d" "e" = isAncestor tangled "d" "e" := by
  have hdistinct : (tangled.map Step.id).Nodup := by decide
  obtain ⟨hdeletions, hinsertions⟩ := ancestry_is_kept hdistinct
  obtain ⟨rest, hrest, hkept⟩ :=
    hdeletions { id := "b", parentId := some "a" } (by decide)
  refine ⟨hdistinct, ⟨rest, hrest, ?_, ?_⟩, ?_⟩
  · exact hkept { id := "a" } (by decide)
      { id := "c", parentId := some "b" } (by decide) (by decide) (by decide)
  · exact hkept { id := "e", parentId := some "d" } (by decide)
      { id := "d", parentId := some "e" } (by decide) (by decide) (by decide)
  · exact ⟨_, rfl, hinsertions { id := "h", parentId := some "d" } _ rfl (by decide) (by decide)
      { id := "d", parentId := some "e" } (by decide)
      { id := "e", parentId := some "d" } (by decide)⟩

end StepTree

end GuidedTours
