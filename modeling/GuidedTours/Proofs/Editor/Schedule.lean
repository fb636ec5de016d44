import GuidedTours.Editor.Request
import GuidedTours.Proofs.Editor.Revise
import Mathlib.Logic.Function.Basic

/-!
Schedules of several editors on one store. An edit of a stored flow is taken apart into its load and
its save, and between the two it waits under a ticket with the flow as it was loaded, while other
moves take place in any order. The editor's own undivided edit is a load with its save right after.
-/

set_option autoImplicit false

namespace GuidedTours

namespace Editor

variable {σ : Type} [Store σ] {s : σ} {workspace flowId : String} {f : Flow}

theorem create_cases (workspace : String) (input : FlowUpdate) (id : FlowId) (now : Moment)
    (s : σ) :
    (∃ e, create workspace input id now s = (.error e, s)) ∨
      ∃ f, newFlow workspace input id now = .ok f ∧
        create workspace input id now s =
          ((fromStore (Store.insertFlow f s).1).map fun _ ↦ f, (Store.insertFlow f s).2) := by
  unfold create
  cases newFlow workspace input id now with
  | error e => exact .inl ⟨e, rfl⟩
  | ok f => exact .inr ⟨f, rfl, rfl⟩

theorem newFlow_of_create {input : FlowUpdate} {id : FlowId} {now : Moment}
    (h : (create workspace input id now s).1 = .ok f) :
    newFlow workspace input id now = .ok f := by
  rcases create_cases workspace input id now s with ⟨e, heq⟩ | ⟨g, hg, heq⟩
  · simp [heq] at h
  · rw [heq] at h
    obtain ⟨_, -, rfl⟩ := map_eq_ok_iff.mp h
    exact hg

theorem get_eq_ok_iff : get workspace flowId s = .ok f ↔
    ∃ id, parseFlowId flowId = .ok id ∧ Store.getFlow workspace id s = .ok f := by
  unfold get fromStore
  rw [bind_eq_ok_iff]
  simp only [mapError_eq_ok_iff]

theorem save_cases (config : EditorConfig) (edit : Edit) (loaded : Flow) (s : σ) :
    (∃ e, edit.revise config loaded = .error e ∧ save config edit loaded s = (.error e, s)) ∨
      ∃ revised, edit.revise config loaded = .ok revised ∧
        save config edit loaded s =
          ((fromStore (Store.saveFlow revised (edit.expectedRevision config loaded) s).1).map
              fun revision ↦ { revised with revision },
            (Store.saveFlow revised (edit.expectedRevision config loaded) s).2) := by
  unfold save
  cases edit.revise config loaded with
  | error e => exact .inl ⟨e, rfl, rfl⟩
  | ok revised => exact .inr ⟨revised, rfl, rfl⟩

theorem archive_cases (workspace flowId : String) (s : σ) :
    (∃ e, archive workspace flowId s = (.error e, s)) ∨
      ∃ id, parseFlowId flowId = .ok id ∧
        archive workspace flowId s =
          (fromStore (Store.archiveFlow workspace id s).1,
            (Store.archiveFlow workspace id s).2) := by
  unfold archive
  cases parseFlowId flowId with
  | error e => exact .inl ⟨e, rfl⟩
  | ok id => exact .inr ⟨id, rfl, rfl⟩

theorem restore_cases (workspace flowId : String) (s : σ) :
    (∃ e, restore workspace flowId s = (.error e, s)) ∨
      ∃ id, parseFlowId flowId = .ok id ∧
        restore workspace flowId s =
          (fromStore (Store.restoreFlow workspace id s).1,
            (Store.restoreFlow workspace id s).2) := by
  unfold restore
  cases parseFlowId flowId with
  | error e => exact .inl ⟨e, rfl⟩
  | ok id => exact .inr ⟨id, rfl, rfl⟩

end Editor

/-- An edit between its load and its save. -/
structure Write where
  config : EditorConfig
  edit : Edit
  loaded : Flow

/-- A store and the edits that are under way, by their tickets. -/
structure Desk (σ : Type) where
  store : σ
  writes : Nat → Option Write

inductive Move where
  | create (workspace : String) (input : FlowUpdate) (id : FlowId) (now : Moment)
  | load (ticket : Nat) (config : EditorConfig) (workspace flowId : String) (edit : Edit)
  | save (ticket : Nat)
  | archive (workspace flowId : String)
  | restore (workspace flowId : String)

namespace Desk

variable {σ : Type} {d : Desk σ} {moves : List Move}

def setWrite (d : Desk σ) (ticket : Nat) (w : Option Write) : Desk σ :=
  { d with writes := Function.update d.writes ticket w }

@[simp] theorem writes_setWrite_self {ticket : Nat} {w : Option Write} :
    (d.setWrite ticket w).writes ticket = w :=
  Function.update_self ..

theorem writes_setWrite_of_ne {ticket other : Nat} {w : Option Write} (h : other ≠ ticket) :
    (d.setWrite ticket w).writes other = d.writes other :=
  Function.update_of_ne h ..

variable [Store σ]

def opening : Desk σ := ⟨Store.empty, fun _ ↦ none⟩

/-- A failed load leaves its ticket vacant, and a save vacates its own whether it succeeds or not.
The save of a vacant ticket does nothing. -/
def perform (d : Desk σ) : Move → Except EditError EditorAnswer × Desk σ
  | .create workspace input id now =>
    let (answer, store) := Editor.create workspace input id now d.store
    (answer.map .flow, { d with store })
  | .load ticket config workspace flowId edit =>
    let answer := Editor.get workspace flowId d.store
    (answer.map .flow, d.setWrite ticket (answer.toOption.map fun loaded ↦ ⟨config, edit, loaded⟩))
  | .save ticket =>
    match d.writes ticket with
    | none => (.ok .done, d)
    | some w =>
      let (answer, store) := Editor.save w.config w.edit w.loaded d.store
      (answer.map .flow, { d with store }.setWrite ticket none)
  | .archive workspace flowId =>
    let (answer, store) := Editor.archive workspace flowId d.store
    (answer.map fun _ ↦ .done, { d with store })
  | .restore workspace flowId =>
    let (answer, store) := Editor.restore workspace flowId d.store
    (answer.map fun _ ↦ .done, { d with store })

def after (d : Desk σ) (moves : List Move) : Desk σ :=
  moves.foldl (fun d m ↦ (d.perform m).2) d

/-- Every move is one that is allowed where it takes place. -/
def Along (allowed : Desk σ → Move → Prop) : Desk σ → List Move → Prop
  | _, [] => True
  | d, m :: rest => allowed d m ∧ Along allowed (d.perform m).2 rest

theorem along_of_forall {allowed : Desk σ → Move → Prop} (h : ∀ d m, allowed d m)
    (d : Desk σ) (moves : List Move) : d.Along allowed moves := by
  induction moves generalizing d with
  | nil => trivial
  | cons m rest ih => exact ⟨h d m, ih _⟩

theorem Along.mono {allowed allowed' : Desk σ → Move → Prop}
    (hmono : ∀ d m, allowed d m → allowed' d m) (h : d.Along allowed moves) :
    d.Along allowed' moves := by
  induction moves generalizing d with
  | nil => trivial
  | cons m rest ih => exact ⟨hmono d m h.1, ih h.2⟩

@[simp] theorem after_nil : d.after [] = d := rfl

@[simp] theorem after_cons {m : Move} : d.after (m :: moves) = (d.perform m).2.after moves := rfl

theorem after_append (d : Desk σ) (moves later : List Move) :
    d.after (moves ++ later) = (d.after moves).after later :=
  List.foldl_append

theorem perform_create (workspace : String) (input : FlowUpdate) (id : FlowId) (now : Moment) :
    d.perform (.create workspace input id now) =
      ((Editor.create workspace input id now d.store).1.map .flow,
        { d with store := (Editor.create workspace input id now d.store).2 }) := by
  simp only [perform]

theorem perform_archive (workspace flowId : String) :
    d.perform (.archive workspace flowId) =
      ((Editor.archive workspace flowId d.store).1.map fun _ ↦ .done,
        { d with store := (Editor.archive workspace flowId d.store).2 }) := by
  simp only [perform]

theorem perform_restore (workspace flowId : String) :
    d.perform (.restore workspace flowId) =
      ((Editor.restore workspace flowId d.store).1.map fun _ ↦ .done,
        { d with store := (Editor.restore workspace flowId d.store).2 }) := by
  simp only [perform]

theorem perform_save_of_none {ticket : Nat} (h : d.writes ticket = none) :
    d.perform (.save ticket) = (.ok .done, d) := by
  simp only [perform, h]

theorem perform_save_of_some {ticket : Nat} {w : Write} (h : d.writes ticket = some w) :
    d.perform (.save ticket) = ((Editor.save w.config w.edit w.loaded d.store).1.map .flow,
      { d with store := (Editor.save w.config w.edit w.loaded d.store).2 }.setWrite
        ticket none) := by
  simp only [perform, h]

/-- A save right after the load makes an undivided edit. -/
theorem store_perform_load_save (d : Desk σ) (ticket : Nat) (config : EditorConfig)
    (workspace flowId : String) (edit : Edit) :
    (d.after [.load ticket config workspace flowId edit, .save ticket]).store =
      (Editor.edit config workspace flowId edit d.store).2 := by
  simp only [after_cons, after_nil, perform, writes_setWrite_self, Editor.edit]
  cases Editor.get workspace flowId d.store with
  | error e => rfl
  | ok loaded => rfl

/-- A flow for examples of schedules. -/
def draft : Flow :=
  { id := ⟨7⟩, workspace := "w", name := "Draft", baseUrl := "/"
    createdAt := ⟨⟨2024, 1, 1, by decide, by decide, by decide⟩, 0, 0, 0, 0,
      by decide, by decide, by decide, by decide⟩ }

end Desk

end GuidedTours
