import GuidedTours.Proofs.Editor.Upkeep
import GuidedTours.Proofs.StepTree.References
import Mathlib.Data.List.Induction

/-!
Where the references between steps come from. Edits check the ids and parents that they bring in, so
a blank id in the store was given to the creation of its flow, and a parent that the flow does not
have was deleted by an edit or was missing already in the steps that the flow was created with.
Creations check neither. If those that succeed are given no blank ids and no missing parents, every
parent in the store is a step of its flow or was deleted from it.
-/

set_option autoImplicit false

namespace GuidedTours

open StepTree

variable {f g : Flow} {config : EditorConfig}

theorem Flow.faults_refresh {found : Outline} (h : f.refresh = .ok (found, g)) :
    AddsNoFault f.steps g.steps := by
  obtain ⟨marked, houtline, rfl⟩ := refresh_eq_ok_iff.mp h
  exact .outline houtline

/-- An edit adds no blank ids, and of dangling parents at most the ids of steps that it deletes. -/
theorem Edit.faults_revise {e : Edit} (h : e.revise config f = .ok g) :
    (∀ s ∈ g.steps, Text.isBlankText s.id → ∃ t ∈ f.steps, t.id = s.id) ∧
      ∀ p, Dangling g.steps p → Dangling f.steps p ∨
        ∃ u fresh, e = .update u fresh ∧ p ∈ u.deletedSteps ∧ ∃ t ∈ f.steps, t.id = p := by
  rcases revise_cases h with ⟨live, -, rfl⟩ | ⟨u, fresh, found, rfl, happly⟩ |
    ⟨id, input, steps, found, -, hsteps, hrefresh⟩
  · exact ⟨fun s hs _ ↦ ⟨s, hs, rfl⟩, fun p hp ↦ .inl hp⟩
  · obtain ⟨steps, dependsOn, hsteps, -, hrefresh⟩ := FlowUpdate.apply_cases happly
    obtain ⟨hblank, hdangling⟩ := FlowUpdate.faults_steps hsteps
    have hmarked : AddsNoFault steps g.steps := Flow.faults_refresh hrefresh
    refine ⟨fun s hs hs' ↦ ?_, fun p hp ↦ ?_⟩
    · obtain ⟨t, ht, hid⟩ := hmarked.blank s hs hs'
      rw [← hid] at hs' ⊢
      exact hblank t ht hs'
    · exact (hdangling p (hmarked.dangling p hp)).imp_right fun hdeleted ↦ ⟨u, fresh, rfl, hdeleted⟩
  · have hfaults : AddsNoFault f.steps g.steps :=
      (AddsNoFault.replace hsteps).trans (Flow.faults_refresh hrefresh)
    exact ⟨hfaults.blank, fun p hp ↦ .inl (hfaults.dangling p hp)⟩

theorem Editor.faults_newFlow {workspace : String} {input : FlowUpdate} {id : FlowId}
    {now : Moment} (h : newFlow workspace input id now = .ok f) :
    AddsNoFault input.newSteps f.steps := by
  obtain ⟨name, baseUrl, found, -, -, hrefresh⟩ := newFlow_cases h
  exact Flow.faults_refresh hrefresh

namespace Desk

section Sometime

variable {σ : Type} [Store σ] {d : Desk σ} {moves : List Move}
  {event allowed : Desk σ → Move → Prop}

/-- Something happens in the course of a schedule. -/
def Sometime (event : Desk σ → Move → Prop) : Desk σ → List Move → Prop
  | _, [] => False
  | d, m :: rest => event d m ∨ Sometime event (d.perform m).2 rest

theorem sometime_append {later : List Move} :
    d.Sometime event (moves ++ later) ↔
      d.Sometime event moves ∨ (d.after moves).Sometime event later := by
  induction moves generalizing d with
  | nil => simp [Sometime]
  | cons m rest ih => rw [List.cons_append, Sometime, ih, Sometime, after_cons, or_assoc]

theorem sometime_concat {m : Move} :
    d.Sometime event (moves ++ [m]) ↔ d.Sometime event moves ∨ event (d.after moves) m := by
  simp [sometime_append, Sometime]

/-- What happens in the course of a schedule was allowed. -/
theorem Along.exists_of_sometime (halong : d.Along allowed moves) (h : d.Sometime event moves) :
    ∃ d m, allowed d m ∧ event d m := by
  induction moves generalizing d with
  | nil => exact h.elim
  | cons m rest ih =>
    rcases h with h | h
    · exact ⟨d, m, halong.1, h⟩
    · exact ih halong.2 h

end Sometime

section References

variable {σ : Type} [Store σ] {moves : List Move}

/-- The move saves an update that takes the step out of the flow with the id, and the save is
written. -/
def Deletes (id : FlowId) (step : String) (d : Desk σ) (m : Move) : Prop :=
  ∃ ticket w u fresh, m = .save ticket ∧ d.writes ticket = some w ∧ w.edit = .update u fresh ∧
    w.loaded.id = id ∧ step ∈ u.deletedSteps ∧ (∃ s ∈ w.loaded.steps, s.id = step) ∧
    (d.perform m).2.store ≠ d.store

/-- The move creates the flow with the id, and is given the steps for it. -/
def Creates (id : FlowId) (steps : List Step) (d : Desk σ) (m : Move) : Prop :=
  ∃ workspace input now f, m = .create workspace input id now ∧ input.newSteps = steps ∧
    (Editor.create workspace input id now d.store).1 = .ok f

/-- A successful creation is given neither blank ids nor missing parents. -/
def CreatesSoundly (d : Desk σ) (m : Move) : Prop :=
  ∀ id steps, d.Creates id steps m →
    (∀ s ∈ steps, ¬ Text.isBlankText s.id) ∧ ∀ p, ¬ Dangling steps p

variable (σ) in
/-- The faulty references of a flow go back to creations and, if they are parents, to deletions in
the course of a schedule. -/
structure FaultsTraced (moves : List Move) (f : Flow) : Prop where
  blank : ∀ s ∈ f.steps, Text.isBlankText s.id →
    ∃ steps, (opening : Desk σ).Sometime (Creates f.id steps) moves ∧ ∃ t ∈ steps, t.id = s.id
  dangling : ∀ p, Dangling f.steps p →
    (opening : Desk σ).Sometime (Deletes f.id p) moves ∨
      ∃ steps, (opening : Desk σ).Sometime (Creates f.id steps) moves ∧ Dangling steps p

variable (σ) in
/-- No step of the flow has a blank id, and each parent is a step of the flow or was deleted from
it in the course of a schedule. -/
structure WellReferenced (moves : List Move) (f : Flow) : Prop where
  ids : ∀ s ∈ f.steps, ¬ Text.isBlankText s.id
  parents : ∀ s ∈ f.steps, ∀ p, s.parent? = some p →
    (∃ t ∈ f.steps, t.id = p) ∨ (opening : Desk σ).Sometime (Deletes f.id p) moves

theorem faultsTraced_core : FaultsTraced σ moves f.core ↔ FaultsTraced σ moves f :=
  ⟨fun h ↦ ⟨h.1, h.2⟩, fun h ↦ ⟨h.1, h.2⟩⟩

theorem FaultsTraced.concat (h : FaultsTraced σ moves f) (m : Move) :
    FaultsTraced σ (moves ++ [m]) f := by
  refine ⟨fun s hs hblank ↦ ?_, fun p hp ↦ ?_⟩
  · obtain ⟨steps, hcreates, hid⟩ := h.blank s hs hblank
    exact ⟨steps, sometime_concat.mpr (.inl hcreates), hid⟩
  · rcases h.dangling p hp with hdeletes | ⟨steps, hcreates, hmissing⟩
    · exact .inl (sometime_concat.mpr (.inl hdeletes))
    · exact .inr ⟨steps, sometime_concat.mpr (.inl hcreates), hmissing⟩

theorem FaultsTraced.create {workspace : String} {input : FlowUpdate} {id : FlowId} {now : Moment}
    (hf : (Editor.create workspace input id now ((opening : Desk σ).after moves).store).1 = .ok f) :
    FaultsTraced σ (moves ++ [.create workspace input id now]) f := by
  have hnew := Editor.newFlow_of_create hf
  obtain ⟨rfl, -⟩ := Editor.newFlow_keeps hnew
  have hfaults := Editor.faults_newFlow hnew
  have hcreates : (opening : Desk σ).Sometime (Creates f.id input.newSteps)
      (moves ++ [.create workspace input f.id now]) :=
    sometime_concat.mpr (.inr ⟨workspace, input, now, f, rfl, rfl, hf⟩)
  exact ⟨fun s hs hblank ↦ ⟨_, hcreates, hfaults.blank s hs hblank⟩,
    fun p hp ↦ .inr ⟨_, hcreates, hfaults.dangling p hp⟩⟩

theorem FaultsTraced.save {ticket : Nat} {w : Write}
    (hw : ((opening : Desk σ).after moves).writes ticket = some w)
    (hloaded : FaultsTraced σ (moves ++ [.save ticket]) w.loaded)
    (hrevise : w.edit.revise w.config w.loaded = .ok g)
    (hwritten : (((opening : Desk σ).after moves).perform (.save ticket)).2.store ≠
      ((opening : Desk σ).after moves).store) :
    FaultsTraced σ (moves ++ [.save ticket]) g := by
  obtain ⟨hblank, hdangling⟩ := Edit.faults_revise hrevise
  have hid : g.id = w.loaded.id := (Edit.revise_keeps hrevise).1
  refine ⟨fun s hs hs' ↦ ?_, fun p hp ↦ ?_⟩
  · obtain ⟨t, ht, htid⟩ := hblank s hs hs'
    rw [hid, ← htid]
    exact hloaded.blank t ht (htid ▸ hs')
  · rw [hid]
    rcases hdangling p hp with hbefore | ⟨u, fresh, hedit, hdeleted, hknown⟩
    · exact hloaded.dangling p hbefore
    · exact .inl (sometime_concat.mpr
        (.inr ⟨ticket, w, u, fresh, rfl, hw, hedit, rfl, hdeleted, hknown, hwritten⟩))

end References

section Runs

variable {σ : Type} [Store σ] [Holdings σ] {moves : List Move}

theorem keeps_faultsTraced (moves : List Move) :
    ((opening : Desk σ).after moves).Keeps (FaultsTraced σ moves) fun _ ↦ True := by
  induction moves using List.reverseRecOn with
  | nil => exact keeps_opening
  | append_singleton moves m ih =>
    have hmono : ((opening : Desk σ).after moves).Keeps (FaultsTraced σ (moves ++ [m]))
        fun _ ↦ True :=
      ⟨fun core hcore ↦ (ih.stored core hcore).concat m,
        fun ticket w hw ↦ ⟨trivial, (ih.loaded ticket w hw).2.concat m⟩⟩
    rw [after_append]
    refine hmono.perform ?_ ?_
    · rintro ticket w g rfl hw - hloaded hrevise hwritten
      exact faultsTraced_core.mpr
        (.save hw (faultsTraced_core.mp hloaded) hrevise hwritten)
    · cases m with
      | create workspace input id now => exact fun f hf ↦ faultsTraced_core.mpr (.create hf)
      | load ticket config workspace flowId edit => trivial
      | save ticket => trivial
      | archive workspace flowId => trivial
      | restore workspace flowId => trivial

theorem faultsTraced_of_mem (hf : f ∈ Holdings.flows ((opening : Desk σ).after moves).store) :
    FaultsTraced σ moves f :=
  faultsTraced_core.mp ((keeps_faultsTraced moves).stored _ (List.mem_map_of_mem hf))

theorem wellReferenced_of_mem (hmoves : (opening : Desk σ).Along CreatesSoundly moves)
    (hf : f ∈ Holdings.flows ((opening : Desk σ).after moves).store) :
    WellReferenced σ moves f := by
  have hfaults := faultsTraced_of_mem hf
  refine ⟨fun s hs hblank ↦ ?_, fun s hs p hparent ↦ ?_⟩
  · obtain ⟨steps, hcreates, t, ht, hid⟩ := hfaults.blank s hs hblank
    obtain ⟨d, m, hsound, hm⟩ := hmoves.exists_of_sometime hcreates
    exact (hsound f.id steps hm).1 t ht (hid ▸ hblank)
  · by_cases hknown : ∃ t ∈ f.steps, t.id = p
    · exact .inl hknown
    · have hmissing : Dangling f.steps p :=
        ⟨⟨s, hs, hparent⟩, fun t ht hid ↦ hknown ⟨t, ht, hid⟩⟩
      rcases hfaults.dangling p hmissing with hdeletes | ⟨steps, hcreates, hgiven⟩
      · exact .inr hdeletes
      · obtain ⟨d, m, hsound, hm⟩ := hmoves.exists_of_sometime hcreates
        exact absurd hgiven ((hsound f.id steps hm).2 p)

end Runs

/-- All references in the store are checked, except for those of the steps that flows are created
with. -/
theorem references_checked_but_for_creations (moves : List Move) :
    ((∀ f ∈ ((opening : Desk ListStore).after moves).store.flows, FaultsTraced ListStore moves f) ∧
      ∀ f ∈ ((opening : Desk TableStore).after moves).store.flows,
        FaultsTraced TableStore moves f) ∧
    ((opening : Desk ListStore).Along CreatesSoundly moves →
      ∀ f ∈ ((opening : Desk ListStore).after moves).store.flows,
        WellReferenced ListStore moves f) ∧
    ((opening : Desk TableStore).Along CreatesSoundly moves →
      ∀ f ∈ ((opening : Desk TableStore).after moves).store.flows,
        WellReferenced TableStore moves f) :=
  ⟨⟨fun _ hf ↦ faultsTraced_of_mem (σ := ListStore) hf,
      fun _ hf ↦ faultsTraced_of_mem (σ := TableStore) hf⟩,
    fun hmoves _ hf ↦ wellReferenced_of_mem (σ := ListStore) hmoves hf,
    fun hmoves _ hf ↦ wellReferenced_of_mem (σ := TableStore) hmoves hf⟩

/-- A flow with two branches is created, and its root is deleted. Only the first branch moves up. -/
def uprooting : List Move := [
  .create "w" { name := some "Draft", baseUrl := some "/", newSteps := forked.steps } forked.id
    forked.createdAt,
  .load 0 {} "w" forked.id.text (.update { deletedSteps := ["a"] } fun _ ↦ ""),
  .save 0]

theorem soundly_uprooting {σ : Type} [Store σ] (d : Desk σ) : d.Along CreatesSoundly uprooting := by
  refine ⟨?_, ?_, ?_, trivial⟩
  · rintro id steps ⟨workspace, input, now, f, hm, rfl, -⟩
    obtain ⟨-, rfl, -, -⟩ := Move.create.inj hm
    refine ⟨by decide, fun p hp ↦ ?_⟩
    obtain ⟨⟨s, hs, hparent⟩, hnone⟩ := hp
    have hparents : ∀ s ∈ forked.steps, s.parent? = none ∨ s.parent? = some "a" := by decide
    rcases hparents s hs with hroot | hroot
    · cases hroot.symm.trans hparent
    · obtain rfl := Option.some.inj (hroot.symm.trans hparent)
      exact hnone _ List.mem_cons_self rfl
  · rintro id steps ⟨workspace, input, now, f, hm, -⟩
    cases hm
  · rintro id steps ⟨workspace, input, now, f, hm, -⟩
    cases hm

theorem references_checked_but_for_creations_uprooting :
    (opening : Desk ListStore).Along CreatesSoundly uprooting ∧
    (opening : Desk TableStore).Along CreatesSoundly uprooting ∧
    (∀ f ∈ ((opening : Desk ListStore).after uprooting).store.flows,
      WellReferenced ListStore uprooting f) ∧
    (∀ f ∈ ((opening : Desk TableStore).after uprooting).store.flows,
      WellReferenced TableStore uprooting f) ∧
    (((opening : Desk ListStore).after uprooting).store.flows.map fun f ↦
      f.steps.map fun s ↦ (s.id, s.parent?)) = [[("b", none), ("c", some "a")]] := by
  obtain ⟨-, ofLists, ofTables⟩ := references_checked_but_for_creations uprooting
  exact ⟨soundly_uprooting _, soundly_uprooting _, ofLists (soundly_uprooting _),
    ofTables (soundly_uprooting _), rfl⟩

/-- A step with a blank id, and one below a step that there is not. -/
def adrift : List Step := [
  { id := " ", opts := { isSource := true, isFinal := true } },
  { id := "a", parentId := some "ghost", opts := { isFinal := true } }]

def drifting : List Move := [
  .create "w" { name := some "Draft", baseUrl := some "/", newSteps := adrift } draft.id
    draft.createdAt]

/-- Neither reference is checked, and nothing has been deleted. -/
theorem creation_stores_unchecked_references :
    ∃ f ∈ ((opening : Desk ListStore).after drifting).store.flows,
      (∃ s ∈ f.steps, Text.isBlankText s.id) ∧
      ∃ s ∈ f.steps, ∃ p, s.parent? = some p ∧ ¬ ((∃ t ∈ f.steps, t.id = p) ∨
        (opening : Desk ListStore).Sometime (Deletes f.id p) drifting) := by
  have hsteps : ((opening : Desk ListStore).after drifting).store.flows.map Flow.steps =
      [adrift] := by decide +kernel
  obtain ⟨f, hf, hadrift⟩ := List.mem_map.mp (hsteps ▸ List.mem_singleton_self adrift)
  refine ⟨f, hf, ?_⟩
  rw [hadrift]
  refine ⟨by decide, _, List.mem_cons_of_mem _ List.mem_cons_self, "ghost", rfl, ?_⟩
  rintro (hknown | hdeleted)
  · revert hknown
    decide
  · rcases hdeleted with ⟨ticket, w, u, fresh, hm, -⟩ | hnever
    · cases hm
    · exact hnever

end Desk

end GuidedTours
