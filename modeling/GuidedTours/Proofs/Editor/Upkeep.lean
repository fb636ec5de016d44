import GuidedTours.Proofs.Editor.Revise
import GuidedTours.Proofs.Editor.Schedule
import GuidedTours.Proofs.Store.Holdings

/-!
What every schedule keeps up. A property that new flows have and that survives every revision holds
of all flows in the store and of all that wait for their save, so it does not matter how late a
flow is saved or what was saved in between. In this way all stored flows stay settled, and as long
as deleted steps hand all their children up, trees stay trees.
-/

set_option autoImplicit false

namespace GuidedTours

open StepTree

namespace Desk

variable {σ : Type} [Store σ] [Holdings σ] {d : Desk σ} {m : Move} {moves : List Move}
variable {P : Flow → Prop} {Q : EditorConfig → Prop}

/-- The flows have a property in the store and under all tickets, and the editors with tickets have
another. -/
structure Keeps (P : Flow → Prop) (Q : EditorConfig → Prop) (d : Desk σ) : Prop where
  stored : ∀ core ∈ (Holdings.flows d.store).map Flow.core, P core
  loaded : ∀ ticket w, d.writes ticket = some w → Q w.config ∧ P w.loaded.core

/-- A move may create flows with the property only, and load for editors with theirs only. -/
def Admits (P : Flow → Prop) (Q : EditorConfig → Prop) (d : Desk σ) : Move → Prop
  | .create workspace input id now =>
    ∀ f, (Editor.create workspace input id now d.store).1 = .ok f → P f.core
  | .load _ config _ _ _ => Q config
  | _ => True

theorem keeps_opening : (opening : Desk σ).Keeps P Q := by
  constructor
  · intro core hcore
    change core ∈ (Holdings.flows (Store.empty : σ)).map Flow.core at hcore
    rw [Holdings.flows_empty] at hcore
    exact absurd hcore List.not_mem_nil
  · intro ticket w hw
    simp [opening] at hw

theorem Keeps.create {workspace : String} {input : FlowUpdate} {id : FlowId} {now : Moment}
    (h : d.Keeps P Q) (hm : d.Admits P Q (.create workspace input id now)) :
    ∀ core ∈ (Holdings.flows (Editor.create workspace input id now d.store).2).map Flow.core,
      P core := by
  change ∀ f, (Editor.create workspace input id now d.store).1 = .ok f → P f.core at hm
  intro core hcore
  rcases Editor.create_cases workspace input id now d.store with ⟨e, heq⟩ | ⟨f, -, heq⟩
  · rw [heq] at hcore
    exact h.stored core hcore
  · rw [heq] at hcore
    rcases Holdings.insertFlow_cases f d.store with hsame | ⟨hok, hsubset⟩
    · rw [hsame] at hcore
      exact h.stored core hcore
    · have hf : P f.core := hm f (by rw [heq, hok]; rfl)
      rcases List.mem_cons.mp (hsubset hcore) with rfl | hold
      · exact hf
      · exact h.stored core hold

theorem Keeps.save {w : Write} (h : d.Keeps P Q)
    (hrevise : ∀ g, w.edit.revise w.config w.loaded = .ok g →
      (Editor.save w.config w.edit w.loaded d.store).2 ≠ d.store → P g.core) :
    ∀ core ∈ (Holdings.flows (Editor.save w.config w.edit w.loaded d.store).2).map Flow.core,
      P core := by
  intro core hcore
  by_cases hsame : (Editor.save w.config w.edit w.loaded d.store).2 = d.store
  · exact h.stored core (hsame ▸ hcore)
  · rcases Editor.save_cases w.config w.edit w.loaded d.store with ⟨e, -, heq⟩ | ⟨g, hg, heq⟩
    · exact absurd (congrArg Prod.snd heq) hsame
    · have hnew := hrevise g hg hsame
      rw [heq] at hcore
      rcases List.mem_cons.mp (Holdings.saveFlow_subset _ _ _ hcore) with rfl | hold
      · exact hnew
      · exact h.stored core hold

theorem Keeps.loaded_setWrite (h : d.Keeps P Q) {ticket : Nat} {w : Option Write}
    (hw : ∀ x, w = some x → Q x.config ∧ P x.loaded.core) (other : Nat) (x : Write)
    (hx : (d.setWrite ticket w).writes other = some x) : Q x.config ∧ P x.loaded.core := by
  by_cases hother : other = ticket
  · rw [hother, writes_setWrite_self] at hx
    exact hw x hx
  · rw [writes_setWrite_of_ne hother] at hx
    exact h.loaded other x hx

/-- What one move keeps. Only a save that is written brings in what has been revised. -/
theorem Keeps.perform (h : d.Keeps P Q)
    (hrevise : ∀ ticket w g, m = .save ticket → d.writes ticket = some w → Q w.config →
      P w.loaded.core → w.edit.revise w.config w.loaded = .ok g →
      (d.perform m).2.store ≠ d.store → P g.core)
    (hm : d.Admits P Q m) : (d.perform m).2.Keeps P Q := by
  cases m with
  | create workspace input id now =>
    rw [perform_create]
    exact ⟨h.create hm, h.loaded⟩
  | load ticket config workspace flowId edit =>
    refine ⟨h.stored, h.loaded_setWrite fun w hw ↦ ?_⟩
    obtain ⟨f, hf, rfl⟩ := Option.map_eq_some_iff.mp hw
    obtain ⟨id, -, hget⟩ := Editor.get_eq_ok_iff.mp (toOption_eq_some_iff.mp hf)
    exact ⟨hm, h.stored _ (Holdings.getFlow_mem hget)⟩
  | save ticket =>
    cases hw : d.writes ticket with
    | none =>
      rw [perform_save_of_none hw]
      exact h
    | some w =>
      obtain ⟨hconfig, hloaded⟩ := h.loaded ticket w hw
      have hnew := fun g ↦ hrevise ticket w g rfl hw hconfig hloaded
      rw [perform_save_of_some hw] at hnew ⊢
      exact ⟨h.save hnew, h.loaded_setWrite fun x hx ↦ by simp at hx⟩
  | archive workspace flowId =>
    rw [perform_archive]
    refine ⟨fun core hcore ↦ ?_, h.loaded⟩
    rcases Editor.archive_cases workspace flowId d.store with ⟨e, heq⟩ | ⟨id, -, heq⟩
    · rw [heq] at hcore
      exact h.stored core hcore
    · rw [heq] at hcore
      exact h.stored core (Holdings.archiveFlow_subset _ _ _ hcore)
  | restore workspace flowId =>
    rw [perform_restore]
    refine ⟨fun core hcore ↦ ?_, h.loaded⟩
    rcases Editor.restore_cases workspace flowId d.store with ⟨e, heq⟩ | ⟨id, -, heq⟩
    · rw [heq] at hcore
      exact h.stored core hcore
    · rw [heq] at hcore
      exact h.stored core (Holdings.restoreFlow_subset _ _ _ hcore)

/-- What a schedule keeps. -/
theorem Keeps.after (h : d.Keeps P Q)
    (hrevise : ∀ config (e : Edit) f g, Q config → P f.core → e.revise config f = .ok g → P g.core)
    (hmoves : d.Along (Admits P Q) moves) : (d.after moves).Keeps P Q := by
  induction moves generalizing d with
  | nil => exact h
  | cons m rest ih =>
    have hstep := h.perform
      (fun _ w g _ _ hconfig hloaded hg _ ↦ hrevise w.config w.edit w.loaded g hconfig hloaded hg)
      hmoves.1
    exact ih hstep hmoves.2

theorem stored_after
    (hrevise : ∀ config (e : Edit) f g, Q config → P f.core → e.revise config f = .ok g → P g.core)
    (hmoves : (opening : Desk σ).Along (Admits P Q) moves) {f : Flow}
    (hf : f ∈ Holdings.flows ((opening : Desk σ).after moves).store) : P f.core :=
  (keeps_opening.after hrevise hmoves).stored _ (List.mem_map_of_mem hf)

theorem settled_core {f : Flow} : f.core.Settled ↔ f.Settled :=
  ⟨fun h ↦ ⟨h.1, h.2, h.3, h.4, h.5⟩, fun h ↦ ⟨h.1, h.2, h.3, h.4, h.5⟩⟩

theorem settled_of_mem {f : Flow}
    (hf : f ∈ Holdings.flows ((opening : Desk σ).after moves).store) : f.Settled := by
  refine settled_core.mp (stored_after (Q := fun _ ↦ True) ?_ (along_of_forall ?_ _ moves) hf)
  · intro config e f g _ hf hrevise
    exact settled_core.mpr (Edit.settled_revise (settled_core.mp hf) hrevise)
  · intro d m
    cases m with
    | create workspace input id now =>
      intro f hcreate
      exact settled_core.mpr (Editor.settled_newFlow (Editor.newFlow_of_create hcreate))
    | _ => trivial

/-- Whatever is created, edited, archived and restored in whatever order, all flows are settled. -/
theorem every_stored_flow_settled (moves : List Move) :
    (∀ f ∈ ((opening : Desk ListStore).after moves).store.flows, f.Settled) ∧
      ∀ f ∈ ((opening : Desk TableStore).after moves).store.flows, f.Settled :=
  ⟨fun _ hf ↦ settled_of_mem (σ := ListStore) hf, fun _ hf ↦ settled_of_mem (σ := TableStore) hf⟩

/-- The editors hand all children of a deleted step up, and nobody succeeds in creating a flow with
an unreachable step. -/
def TreesOnly (d : Desk σ) : Move → Prop
  | .create workspace input id now =>
    (∃ f, (Editor.create workspace input id now d.store).1 = .ok f) →
      ∃ found marked, outline input.newSteps = .ok (found, marked) ∧ found.unreachable = []
  | .load _ config _ _ _ => config.deletePolicy = .reconnectAll
  | _ => True

theorem tree_of_mem {f : Flow} (hmoves : (opening : Desk σ).Along TreesOnly moves)
    (hf : f ∈ Holdings.flows ((opening : Desk σ).after moves).store) : IsTree f.steps := by
  refine stored_after (P := fun f ↦ IsTree f.steps) (Q := fun config ↦
    config.deletePolicy = .reconnectAll) ?_ (hmoves.mono ?_) hf
  · intro config e f g hpolicy hf hrevise
    exact Edit.tree_revise (f := f) (g := g) hf hpolicy hrevise
  · intro d m hm
    cases m with
    | create workspace input id now =>
      intro f hcreate
      obtain ⟨found, marked, houtline, hunreachable⟩ := hm ⟨f, hcreate⟩
      have hforest : Forest input.newSteps := forest_of_unreachable_eq_nil houtline hunreachable
      show IsTree f.steps
      exact Editor.tree_newFlow hforest (Editor.newFlow_of_create hcreate)
    | load ticket config workspace flowId edit => exact hm
    | _ => trivial

/-- Every flow is a tree at all times, and every single update leads from trees to trees. -/
theorem every_stored_flow_tree :
    (∀ moves, (opening : Desk ListStore).Along TreesOnly moves →
      ∀ f ∈ ((opening : Desk ListStore).after moves).store.flows, IsTree f.steps) ∧
    (∀ moves, (opening : Desk TableStore).Along TreesOnly moves →
      ∀ f ∈ ((opening : Desk TableStore).after moves).store.flows, IsTree f.steps) ∧
    ∀ (u : FlowUpdate) config fresh f found g, config.deletePolicy = .reconnectAll →
      IsTree f.steps → u.apply config fresh f = .ok (found, g) →
      IsTree g.steps ∧ found.unreachable = [] :=
  ⟨fun _ hmoves _ hf ↦ tree_of_mem (σ := ListStore) hmoves hf,
    fun _ hmoves _ hf ↦ tree_of_mem (σ := TableStore) hmoves hf,
    fun _ _ _ _ _ _ hpolicy hf happly ↦ FlowUpdate.tree_apply hf hpolicy happly⟩

/-- A flow with two branches. -/
def forked : Flow :=
  { draft with
    steps := [{ id := "a" }, { id := "b", parentId := some "a" },
      { id := "c", parentId := some "a" }] }

/-- Deletes the root, which makes roots of both branches, and moves one below the other. -/
def regrafting : FlowUpdate :=
  { deletedSteps := ["a"], updatedSteps := [{ id := "c", parentId := some "b" }] }

/-- The flow is published between the load and the save of its update. -/
def regraftingSchedule : List Move := [
  .create "w" { name := some "Draft", baseUrl := some "/", newSteps := forked.steps } forked.id
    forked.createdAt,
  .load 0 { deletePolicy := .reconnectAll } "w" forked.id.text (.update regrafting fun _ ↦ ""),
  .load 1 { deletePolicy := .reconnectAll } "w" forked.id.text (.setLive true),
  .save 1,
  .save 0]

theorem every_stored_flow_tree_regrafting :
    (opening : Desk ListStore).Along TreesOnly regraftingSchedule ∧
    (opening : Desk TableStore).Along TreesOnly regraftingSchedule ∧
    (∀ f ∈ ((opening : Desk ListStore).after regraftingSchedule).store.flows, IsTree f.steps) ∧
    (∀ f ∈ ((opening : Desk TableStore).after regraftingSchedule).store.flows, IsTree f.steps) ∧
    (((opening : Desk ListStore).after regraftingSchedule).store.flows.map fun f ↦
      (f.revision, f.steps.map fun s ↦ (s.id, s.parent?))) =
        [(2, [("b", none), ("c", some "b")])] ∧
    IsTree forked.steps ∧ ∃ found g,
      regrafting.apply { deletePolicy := .reconnectAll } (fun _ ↦ "") forked = .ok (found, g) ∧
      IsTree g.steps ∧ found.unreachable = [] := by
  have hlists : (opening : Desk ListStore).Along TreesOnly regraftingSchedule :=
    ⟨fun _ ↦ ⟨_, _, rfl, rfl⟩, rfl, rfl, trivial, trivial, trivial⟩
  have htables : (opening : Desk TableStore).Along TreesOnly regraftingSchedule :=
    ⟨fun _ ↦ ⟨_, _, rfl, rfl⟩, rfl, rfl, trivial, trivial, trivial⟩
  have htree : IsTree forked.steps := tree_of_unreachable_eq_nil rfl rfl
  obtain ⟨ofLists, ofTables, ofUpdate⟩ := every_stored_flow_tree
  refine ⟨hlists, htables, ofLists _ hlists, ofTables _ htables, rfl, htree, ?_⟩
  exact ⟨_, _, rfl, ofUpdate regrafting { deletePolicy := .reconnectAll } (fun _ ↦ "") forked
    _ _ rfl htree rfl⟩

end Desk

end GuidedTours
