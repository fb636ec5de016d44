import GuidedTours.Proofs.StepTree.Ancestor
import GuidedTours.Proofs.StepTree.Edit

/-!
Circles of parents. A list of steps is acyclic if no way up leads back to where it began; a parent
may be missing, as deletions leave it. Giving one step another parent closes a circle exactly if
the way up from the new parent meets the step, and that is what a move asks before it is made. An
insertion does not ask: it adds a step below its parent, which closes a circle exactly if the way up
from the parent ends at the id of the new step, left there by a deletion. Splicing the new step in
above a sibling never closes one.
-/

set_option autoImplicit false

namespace GuidedTours

namespace StepTree

variable {steps result : List Step} {incoming : Step} {ancestor id : String} {path : List String}

/-- No step is a proper ancestor of itself: the only way up from an id to the same id is the empty
one. -/
def Acyclic (steps : List Step) : Prop :=
  ∀ id path, Way steps id id path → path = []

theorem acyclic_iff :
    Acyclic steps ↔ ∀ id p, parentOf steps id = some p → ¬ isAncestor steps id p := by
  constructor
  · intro h id p hparent hancestor
    obtain ⟨path, hway⟩ := isAncestor_iff_exists_way.mp hancestor
    nomatch h id (id :: path) (.up hparent hway)
  · intro h id path hway
    cases hway with
    | here => rfl
    | up hparent hway => exact absurd (isAncestor_iff_exists_way.mpr ⟨_, hway⟩) (h _ _ hparent)

instance : DecidablePred Acyclic := fun steps ↦
  decidable_of_iff (∀ s ∈ steps, ∀ p ∈ parentOf steps s.id, ¬ isAncestor steps s.id p) <| by
    rw [acyclic_iff]
    constructor
    · intro h id p hparent
      obtain ⟨s, hs, rfl⟩ := List.mem_map.mp (mem_ids_of_parentOf hparent)
      exact h s hs p hparent
    · exact fun h s _ p hparent ↦ h s.id p hparent

/-- A way uses the parents of the ids that it meets and no others. -/
theorem Way.of_agree (h : Way result ancestor id path)
    (hagree : ∀ other ∈ path, parentOf steps other = parentOf result other) :
    Way steps ancestor id path := by
  induction h with
  | here => exact .here
  | up hparent _ ih =>
    obtain ⟨hid, hrest⟩ := List.forall_mem_cons.mp hagree
    exact .up (hid.trans hparent) (ih hrest)

theorem Acyclic.of_agree (h : Acyclic steps)
    (hagree : ∀ id, parentOf steps id = parentOf result id) : Acyclic result :=
  fun id path hway ↦ h id path (hway.of_agree fun other _ ↦ hagree other)

/-! ### Giving one step another parent -/

section Redirect

/-! Two lists in which all ids but one have the same parents. -/

variable (hothers : ∀ other ≠ id, parentOf result other = parentOf steps other)

include hothers

/-- On the way to an id its own parent does not matter. -/
theorem isAncestor_of_redirected {start : String} (h : isAncestor result id start) :
    isAncestor steps id start := by
  obtain ⟨path, hway⟩ := isAncestor_iff_exists_way.mp h
  clear h
  induction hway with
  | here => exact isAncestor_self
  | @up start parent path hparent _ ih =>
    by_cases hstart : start = id
    · exact hstart ▸ isAncestor_self
    · exact (isAncestor_of_parentOf ((hothers start hstart).symm.trans hparent)).mpr (.inr ih)

theorem acyclic_redirected_iff (h : Acyclic steps) :
    Acyclic result ↔ ∀ p, parentOf result id = some p → ¬ isAncestor steps id p := by
  have hback : ∀ other ≠ id, parentOf steps other = parentOf result other :=
    fun other hne ↦ (hothers other hne).symm
  constructor
  · intro hresult p hparent hancestor
    exact acyclic_iff.mp hresult id p hparent (isAncestor_of_redirected hback hancestor)
  · intro hparents other path hcircle
    -- a circle that avoids the id was there before, and one through it begins with its new parent
    by_cases hid : id ∈ path
    · obtain ⟨front, rest, -, hfront, hrest⟩ := hcircle.split hid
      cases hrest with
      | up hparent hrest =>
        have hancestor : isAncestor result id _ :=
          isAncestor_iff_exists_way.mpr ⟨_, hrest.trans hfront⟩
        exact absurd (isAncestor_of_redirected hothers hancestor) (hparents _ hparent)
    · exact h other path (hcircle.of_agree fun y hy ↦ hback y (ne_of_mem_of_not_mem hy hid))

end Redirect

/-- Whether a step stands beside another one or right below it makes no difference. -/
theorem acyclic_spliced_iff {sibling new : String} (hne : sibling ≠ new)
    (hothers : ∀ other ≠ sibling, parentOf result other = parentOf steps other)
    (hbefore : parentOf steps sibling = parentOf steps new)
    (hafter : parentOf result sibling = some new) : Acyclic result ↔ Acyclic steps := by
  constructor
  · intro h
    refine (acyclic_redirected_iff (fun other hother ↦ (hothers other hother).symm) h).mpr ?_
    intro p hparent hancestor
    have hnew : parentOf result new = some p := by rw [hothers new hne.symm, ← hbefore, hparent]
    have hcircle : isAncestor result sibling new :=
      (isAncestor_of_parentOf hnew).mpr (.inr hancestor)
    exact acyclic_iff.mp h sibling new hafter hcircle
  · intro h
    refine (acyclic_redirected_iff hothers h).mpr fun p hparent hancestor ↦ ?_
    obtain rfl : new = p := Option.some.inj (hafter.symm.trans hparent)
    obtain ⟨path, hway⟩ := isAncestor_iff_exists_way.mp hancestor
    cases hway with
    | here => exact hne rfl
    | up hnew hway =>
      exact acyclic_iff.mp h sibling _ (hbefore.trans hnew)
        (isAncestor_iff_exists_way.mpr ⟨_, hway⟩)

/-! ### Edits -/

section Change

/-! Looking up an id after the step with a given id has been changed. -/

variable {f : Step → Step} (hkeeps : ∀ s, (f s).id = s.id)

include hkeeps

theorem find?_changed : find? (modifyFirst (·.id = id) f steps) id = (find? steps id).map f :=
  find?_modifyFirst_self fun s hs ↦ by simpa [hkeeps] using hs

theorem find?_changed_of_ne {other : String} (hne : other ≠ id) :
    find? (modifyFirst (·.id = id) f steps) other = find? steps other := by
  have hpassed : ∀ s : Step, decide (s.id = id) → ¬ decide (s.id = other) := by
    intro s hs
    rw [of_decide_eq_true hs]
    simpa using hne.symm
  exact find?_modifyFirst_of_forall hpassed fun s hs ↦ by simpa [hkeeps] using hpassed s hs

end Change

theorem parentOf_added_of_ne (hne : id ≠ incoming.id) :
    parentOf (steps ++ [incoming]) id = parentOf steps id := by
  simp [parentOf, find?, List.find?_append, hne.symm]

theorem parentOf_added_self (hnew : ∀ s ∈ steps, s.id ≠ incoming.id) :
    parentOf (steps ++ [incoming]) incoming.id = incoming.parent? := by
  rw [parentOf, find?_append_self hnew, Option.bind_some]

/-- An insertion sets the parents of two ids at most: its own, and that of the step that it is
spliced in above. -/
theorem insert_parents (distinct : (steps.map Step.id).Nodup) (hnamed : incoming.id ≠ "")
    (hnew : ∀ s ∈ steps, s.id ≠ incoming.id) (hinsert : insert steps incoming = .ok result) :
    parentOf result incoming.id = incoming.parent? ∧
      ((∀ other ≠ incoming.id, parentOf result other = parentOf steps other) ∨
        ∃ sibling ∈ steps, sibling.parent? = incoming.parent? ∧
          parentOf result sibling.id = some incoming.id ∧
          ∀ other ≠ incoming.id, other ≠ sibling.id →
            parentOf result other = parentOf steps other) := by
  obtain ⟨-, rfl⟩ := insert_cases hinsert
  refine ⟨parentOf_added_self fun _ ↦ id_ne_of_mem_spliced hnew, ?_⟩
  cases hsibling : steps.find? (·.parent? = incoming.parent?) with
  | none =>
    refine .inl fun other hother ↦ ?_
    rw [modifyFirst_of_forall_not (by simpa using hsibling), parentOf_added_of_ne hother]
  | some sibling =>
    have hkeeps : ∀ s : Step, (s.setParent (some incoming.id)).id = s.id := fun _ ↦ rfl
    have hmem : sibling ∈ steps := List.mem_of_find?_eq_some hsibling
    rw [modifyFirst_eq_modifyFirst_key distinct hsibling]
    refine .inr ⟨sibling, hmem, by simpa using List.find?_some hsibling, ?_, ?_⟩
    · rw [parentOf_added_of_ne (hnew sibling hmem), parentOf, find?_changed hkeeps,
        find?_of_mem distinct hmem]
      exact (sibling.parent?_setParent _).trans (named?_eq_some_iff.mpr ⟨rfl, hnamed⟩)
    · intro other hother hne
      rw [parentOf_added_of_ne hother, parentOf, parentOf, find?_changed_of_ne hkeeps hne]

theorem acyclic_replace {data : StepData} {parent : Option String} (h : Acyclic steps)
    (hreplace : replace steps id data parent = .ok result) : Acyclic result := by
  obtain ⟨-, rfl | ⟨p, -, -, hbelow, rfl⟩⟩ := replace_cases hreplace
  · have hkeeps : ∀ s : Step, { s with data }.id = s.id := fun _ ↦ rfl
    refine h.of_agree fun other ↦ ?_
    by_cases hother : other = id
    · rw [hother, parentOf, parentOf, find?_changed hkeeps, Option.bind_map]
      rfl
    · rw [parentOf, parentOf, find?_changed_of_ne hkeeps hother]
  · have hkeeps : ∀ s : Step, { s.setParent (some p) with data }.id = s.id := fun _ ↦ rfl
    have hothers : ∀ other ≠ id, parentOf (modifyFirst (·.id = id)
        (fun s ↦ { s.setParent (some p) with data }) steps) other = parentOf steps other :=
      fun other hother ↦ by rw [parentOf, parentOf, find?_changed_of_ne hkeeps hother]
    refine (acyclic_redirected_iff hothers h).mpr fun q hparent ↦ ?_
    rw [parentOf, find?_changed hkeeps, Option.bind_map] at hparent
    obtain ⟨s, -, hmoved⟩ := Option.bind_eq_some_iff.mp hparent
    have hnamed : named? (some p) = some q := (s.parent?_setParent (some p)).symm.trans hmoved
    obtain rfl : p = q := Option.some.inj (named?_eq_some_iff.mp hnamed).1
    exact hbelow

theorem acyclic_added_iff (h : Acyclic steps) (hnew : ∀ s ∈ steps, s.id ≠ incoming.id) :
    Acyclic (steps ++ [incoming]) ↔
      ∀ p, incoming.parent? = some p → ¬ isAncestor steps incoming.id p := by
  rw [acyclic_redirected_iff (fun _ hne ↦ parentOf_added_of_ne hne) h, parentOf_added_self hnew]

theorem acyclic_insert_iff (distinct : (steps.map Step.id).Nodup) (h : Acyclic steps)
    (hnamed : incoming.id ≠ "") (hnew : ∀ s ∈ steps, s.id ≠ incoming.id)
    (hinsert : insert steps incoming = .ok result) :
    Acyclic result ↔ ∀ p, incoming.parent? = some p → ¬ isAncestor steps incoming.id p := by
  obtain ⟨hself, hkept | ⟨sibling, hmem, hbeside, hspliced, hkept⟩⟩ :=
    insert_parents distinct hnamed hnew hinsert
  · rw [acyclic_redirected_iff hkept h, hself]
  · rw [← acyclic_added_iff h hnew]
    have hne : sibling.id ≠ incoming.id := hnew sibling hmem
    have hbefore : parentOf (steps ++ [incoming]) sibling.id =
        parentOf (steps ++ [incoming]) incoming.id := by
      rw [parentOf_added_of_ne hne, parentOf_added_self hnew, parentOf_of_mem distinct hmem,
        hbeside]
    refine acyclic_spliced_iff hne (fun other hother ↦ ?_) hbefore hspliced
    by_cases hincoming : other = incoming.id
    · rw [hincoming, hself, parentOf_added_self hnew]
    · rw [hkept other hincoming hother, parentOf_added_of_ne hincoming]

/-- An edit of an acyclic list leaves an acyclic one, unless it inserts a step below one whose way
up ends at the id of the new step. -/
theorem acyclic_upsert_iff (distinct : (steps.map Step.id).Nodup) (h : Acyclic steps)
    (hupsert : upsert steps incoming = .ok result) :
    Acyclic result ↔ (∃ s ∈ steps, s.id = incoming.id) ∨
      ∀ p, incoming.parent? = some p → ¬ isAncestor steps incoming.id p := by
  obtain ⟨hblank, ⟨hknown, hreplace⟩ | ⟨hnew, hinsert⟩⟩ := upsert_cases hupsert
  · exact iff_of_true (acyclic_replace h hreplace) (.inl hknown)
  · have hnamed : incoming.id ≠ "" := fun hempty ↦ hblank (by rw [hempty]; rfl)
    have hunknown : ¬ ∃ s ∈ steps, s.id = incoming.id := fun ⟨s, hs, hid⟩ ↦ hnew s hs hid
    rw [acyclic_insert_iff distinct h hnamed hnew hinsert, or_iff_right hunknown]

/-- The step `x` has been deleted from between `a` and its children `b` and `c`, of which only the
first moved up. -/
def uprooted : List Step := [
  { id := "a" }, { id := "b", parentId := some "a" }, { id := "c", parentId := some "x" }]

/-- The step `y` has been spliced in between `a` and `b`. -/
def spliced : List Step := [
  { id := "a" }, { id := "b", parentId := some "y" }, { id := "c", parentId := some "x" },
  { id := "y", parentId := some "a" }]

theorem acyclic_upsert_iff_splicing :
    (uprooted.map Step.id).Nodup ∧ Acyclic uprooted ∧
    upsert uprooted { id := "y", parentId := some "a" } = .ok spliced ∧ Acyclic spliced := by
  have hdistinct : (uprooted.map Step.id).Nodup := by decide
  have hacyclic : Acyclic uprooted := by decide
  have hupsert : upsert uprooted { id := "y", parentId := some "a" } = .ok spliced := rfl
  have hway : ∀ p, some "a" = some p → ¬ isAncestor uprooted "y" p := by
    rintro p ⟨⟩
    decide
  exact ⟨hdistinct, hacyclic, hupsert,
    (acyclic_upsert_iff hdistinct hacyclic hupsert).mpr (.inr hway)⟩

/-- The step `x` is inserted anew below `c`, which still names it as its parent. -/
theorem insertion_closes_circle :
    (uprooted.map Step.id).Nodup ∧ Acyclic uprooted ∧
    ∃ result, upsert uprooted { id := "x", parentId := some "c" } = .ok result ∧
      ¬ Acyclic result := by
  refine ⟨by decide, by decide, _, rfl, fun hacyclic ↦ ?_⟩
  have hcircle : Way (uprooted ++ [{ id := "x", parentId := some "c" }]) "x" "x" ["x", "c"] :=
    .up rfl (.up rfl .here)
  nomatch hacyclic "x" ["x", "c"] hcircle

end StepTree

end GuidedTours
