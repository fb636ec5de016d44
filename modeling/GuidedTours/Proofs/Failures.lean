import GuidedTours.Proofs.Editor.Upkeep
import GuidedTours.Proofs.Sessions
import GuidedTours.Proofs.Store.Contents

/-!
What failed requests leave behind. An edit works on the flow as it was loaded, so whatever stops it
before its save leaves no trace in the store, and a store that refuses to insert, to save or to move
a flow writes nothing. There is one exception. A store of tables counts up the revision in the row
before it reads it, and where the count goes beyond the greatest number it reports as failed a save
that has been written.
-/

set_option autoImplicit false

namespace GuidedTours

open Enrollment

section Atomic

variable {ε α β σ : Type} {s : σ} {result : Except ε α × σ}

/-- The operation has succeeded, or the store is what it was before. -/
def Atomic (s : σ) (result : Except ε α × σ) : Prop :=
  ∀ e, result.1 = .error e → result.2 = s

theorem atomic_of_eq (h : result.2 = s) : Atomic s result := fun _ _ ↦ h

theorem atomic_of_ok {a : α} (h : result.1 = .ok a) : Atomic s result :=
  fun _ he ↦ nomatch h.symm.trans he

theorem Atomic.map (h : Atomic s result) (g : α → β) : Atomic s (result.1.map g, result.2) := by
  intro e he
  cases hresult : result.1 with
  | error e' => exact h e' hresult
  | ok a =>
    change result.1.map g = .error e at he
    rw [hresult] at he
    nomatch he

theorem Atomic.fromStore {result : Except StoreError α × σ} (h : Atomic s result) :
    Atomic s (Editor.fromStore result.1, result.2) := by
  intro e he
  cases hresult : result.1 with
  | error e' => exact h e' hresult
  | ok a =>
    change Editor.fromStore result.1 = .error e at he
    rw [hresult] at he
    nomatch he

end Atomic

/-- A store that writes nothing when it refuses to insert or to move a flow. -/
class AtomicMoves (σ : Type) [Store σ] : Prop where
  insertFlow (f : Flow) (s : σ) : Atomic s (Store.insertFlow f s)
  archiveFlow (workspace : String) (id : FlowId) (s : σ) :
    Atomic s (Store.archiveFlow workspace id s)
  restoreFlow (workspace : String) (id : FlowId) (s : σ) :
    Atomic s (Store.restoreFlow workspace id s)

instance : AtomicMoves ListStore where
  insertFlow f s := by
    rcases ListStore.insertFlow_cases f s with ⟨-, heq⟩ | ⟨-, heq⟩
    · exact atomic_of_eq (congrArg Prod.snd heq)
    · exact atomic_of_ok (congrArg Prod.fst heq)
  archiveFlow workspace id s := by
    rcases ListStore.archiveFlow_cases workspace id s with ⟨-, heq⟩ | ⟨f, -, heq⟩
    · exact atomic_of_eq (congrArg Prod.snd heq)
    · exact atomic_of_ok (congrArg Prod.fst heq)
  restoreFlow workspace id s := by
    rcases ListStore.restoreFlow_cases workspace id s with ⟨-, heq⟩ | ⟨f, -, heq⟩
    · exact atomic_of_eq (congrArg Prod.snd heq)
    · exact atomic_of_ok (congrArg Prod.fst heq)

instance : AtomicMoves TableStore where
  insertFlow f s := by
    rcases TableStore.insertRow_cases (.ofFlow f.workspace f) s with ⟨-, heq⟩ | ⟨-, heq⟩
    · exact atomic_of_eq (congrArg Prod.snd heq)
    · exact atomic_of_ok (congrArg Prod.fst heq)
  archiveFlow workspace id s := by
    rcases TableStore.archiveFlow_cases workspace id s with ⟨e, heq⟩ | ⟨f, -, -, heq⟩
    · exact atomic_of_eq (congrArg Prod.snd heq)
    · exact atomic_of_ok (congrArg Prod.fst heq)
  restoreFlow workspace id s := by
    rcases TableStore.restoreFlow_cases workspace id s with ⟨e, heq⟩ | ⟨row, f, -, -, -, heq⟩
    · exact atomic_of_eq (congrArg Prod.snd heq)
    · exact atomic_of_ok (congrArg Prod.fst heq)

section Requests

variable {σ : Type} [Store σ] {s : σ} {config : EditorConfig} {workspace : String}

namespace Editor

theorem atomic_save {edit : Edit} {loaded : Flow}
    (hsave : ∀ revised, edit.revise config loaded = .ok revised →
      Atomic s (Store.saveFlow revised (edit.expectedRevision config loaded) s)) :
    Atomic s (save config edit loaded s) := by
  rcases save_cases config edit loaded s with ⟨e, -, heq⟩ | ⟨revised, hrevised, heq⟩
  · exact atomic_of_eq (congrArg Prod.snd heq)
  · rw [heq]
    exact (hsave revised hrevised).fromStore.map _

theorem atomic_edit {flowId : String} {change : Edit}
    (hsave : ∀ loaded revised, get workspace flowId s = .ok loaded →
      change.revise config loaded = .ok revised →
      Atomic s (Store.saveFlow revised (change.expectedRevision config loaded) s)) :
    Atomic s (edit config workspace flowId change s) := by
  unfold edit
  cases hget : get workspace flowId s with
  | error e => exact atomic_of_eq rfl
  | ok loaded => exact atomic_save fun revised hrevised ↦ hsave loaded revised hget hrevised

variable [AtomicMoves σ]

theorem atomic_create (workspace : String) (input : FlowUpdate) (id : FlowId) (now : Moment)
    (s : σ) : Atomic s (create workspace input id now s) := by
  rcases create_cases workspace input id now s with ⟨e, heq⟩ | ⟨f, -, heq⟩
  · exact atomic_of_eq (congrArg Prod.snd heq)
  · rw [heq]
    exact (AtomicMoves.insertFlow f s).fromStore.map _

theorem atomic_archive (workspace flowId : String) (s : σ) :
    Atomic s (archive workspace flowId s) := by
  rcases archive_cases workspace flowId s with ⟨e, heq⟩ | ⟨id, -, heq⟩
  · exact atomic_of_eq (congrArg Prod.snd heq)
  · rw [heq]
    exact (AtomicMoves.archiveFlow workspace id s).fromStore

theorem atomic_restore (workspace flowId : String) (s : σ) :
    Atomic s (restore workspace flowId s) := by
  rcases restore_cases workspace flowId s with ⟨e, heq⟩ | ⟨id, -, heq⟩
  · exact atomic_of_eq (congrArg Prod.snd heq)
  · rw [heq]
    exact (AtomicMoves.restoreFlow workspace id s).fromStore

end Editor

/-- What an editor is asked for leaves no trace if it fails, provided that a failed save of the
store leaves none. -/
theorem EditorRequest.atomic_perform [AtomicMoves σ] {r : EditorRequest}
    (hsave : ∀ flowId change loaded revised, r = .edit flowId change →
      Editor.get workspace flowId s = .ok loaded → change.revise config loaded = .ok revised →
      Atomic s (Store.saveFlow revised (change.expectedRevision config loaded) s)) :
    Atomic s (r.perform config workspace s) := by
  cases r with
  | create input id now =>
    simp only [perform]
    exact (Editor.atomic_create workspace input id now s).map _
  | edit flowId change =>
    simp only [perform]
    exact (Editor.atomic_edit fun loaded revised ↦ hsave flowId change loaded revised rfl).map _
  | archive flowId =>
    simp only [perform]
    exact (Editor.atomic_archive workspace flowId s).map _
  | restore flowId =>
    simp only [perform]
    exact (Editor.atomic_restore workspace flowId s).map _
  | get _ | list | listArchived | dependencyCandidates _ | rootStep _ | childStep _ _ _ =>
    exact atomic_of_eq rfl

/-- Enrollment puts a user state only where it answers, whatever the store. -/
theorem EnrollmentRequest.atomic_perform (workspace : String) (s : σ) (r : EnrollmentRequest) :
    Atomic s (r.perform workspace s) := by
  cases r with
  | enroll profile now =>
    simp only [perform]
    have henroll : Atomic s (Enrollment.enroll workspace profile now s) :=
      fun _ he ↦ enroll_of_error he
    exact henroll.map _
  | report user progress now =>
    simp only [perform]
    rcases report_cases workspace user progress now s with heq | ⟨outcome, -, heq⟩
    · exact atomic_of_eq heq
    · rw [heq]
      exact atomic_of_ok rfl
  | reset user => exact atomic_of_ok rfl
  | trackEvents user events => exact atomic_of_ok rfl
  | resolve _ _ | liveFlow _ | state _ | analytics _ => exact atomic_of_eq rfl

end Requests

namespace TableStore

variable {s : TableStore} {f : Flow} {expected : Option UInt64}

/-- The save would count the revision of the row up beyond the greatest number. -/
def Overflows (f : Flow) (expected : Option UInt64) (s : TableStore) : Prop :=
  ∃ row, s.active.find? (FlowRow.owns f.workspace f.id) = some row ∧
    (∀ e, expected = some e → row.revision = .ofRevision e) ∧ row.revision.next = .overflown

theorem atomic_saveFlow (h : ¬ s.Overflows f expected) : Atomic s (saveFlow f expected s) := by
  rcases saveFlow_cases f expected s with ⟨e, heq⟩ | ⟨row, hfind, hexpected, heq⟩
  · exact atomic_of_eq (congrArg Prod.snd heq)
  · cases hnext : row.revision.next with
    | whole n =>
      refine atomic_of_ok (a := n.toUInt64) ?_
      rw [heq, hnext]
      rfl
    | overflown => exact absurd ⟨row, hfind, hexpected, hnext⟩ h

/-- Such a save of a row that can be read is reported as failed, but the row is no longer what it
was. -/
theorem saveFlow_of_overflows {row : FlowRow} {n : UInt64}
    (hfind : s.active.find? (FlowRow.owns f.workspace f.id) = some row)
    (hread : row.revision.read = .ok n) (h : s.Overflows f expected) :
    (saveFlow f expected s).1 = .error .unreadableRow ∧ (saveFlow f expected s).2 ≠ s := by
  obtain ⟨found, hfound, hexpected, hnext⟩ := h
  obtain rfl : row = found := Option.some.inj (hfind.symm.trans hfound)
  have hconflict : expected.filter (fun e ↦ row.revision ≠ .ofRevision e) = none := by
    simpa [Option.filter_eq_none_iff] using hexpected
  have hsave : saveFlow f expected s = (.error .unreadableRow, { s with
      active := modifyFirst (FlowRow.owns f.workspace f.id)
        (fun r ↦ { r with live := f.live, revision := .overflown, document := f }) s.active }) := by
    simp only [saveFlow, hfind, hconflict, hnext]
    rfl
  rw [hsave]
  refine ⟨rfl, fun hsame ↦ ?_⟩
  have hlater := congrArg (fun t ↦ t.active.find? (FlowRow.owns f.workspace f.id)) hsame
  simp only [hfind] at hlater
  have howner : ∀ r : FlowRow, r.owns f.workspace f.id →
      FlowRow.owns f.workspace f.id
        { r with live := f.live, revision := .overflown, document := f } := fun _ h ↦ h
  rw [find?_modifyFirst_self howner, hfind, Option.map_some, Option.some_inj] at hlater
  rw [← hlater] at hread
  simp [RevisionColumn.read] at hread

end TableStore

namespace EditorRequest

variable {s : TableStore} {config : EditorConfig} {workspace : String} {r : EditorRequest}

/-- The request is an edit that can be made, but whose save would count the revision up beyond the
greatest number. -/
def Overflows (config : EditorConfig) (workspace : String) (s : TableStore) :
    EditorRequest → Prop
  | .edit flowId change => ∃ loaded revised, Editor.get workspace flowId s = .ok loaded ∧
      change.revise config loaded = .ok revised ∧
      s.Overflows revised (change.expectedRevision config loaded)
  | _ => False

theorem atomic_of_not_overflows (h : ¬ r.Overflows config workspace s) :
    Atomic s (r.perform config workspace s) := by
  refine atomic_perform fun flowId change loaded revised hr hget hrevised ↦ ?_
  subst hr
  exact TableStore.atomic_saveFlow fun hoverflows ↦ h ⟨loaded, revised, hget, hrevised, hoverflows⟩

theorem changes_of_overflows (hs : s.Sound) (h : r.Overflows config workspace s) :
    (r.perform config workspace s).1 = .error (.store .unreadableRow) ∧
      (r.perform config workspace s).2 ≠ s := by
  cases r with
  | edit flowId change =>
    obtain ⟨loaded, revised, hget, hrevised, hoverflows⟩ := h
    obtain ⟨id, -, hload⟩ := Editor.get_eq_ok_iff.mp hget
    obtain ⟨row, hfind, hread⟩ := TableStore.getFlow_eq_ok_iff.mp hload
    obtain ⟨hrowId, hrowWorkspace⟩ := FlowRow.owns_iff.mp (List.find?_some hfind)
    obtain ⟨hloadedId, hloadedWorkspace, -⟩ :=
      (hs.active row (List.mem_of_find?_eq_some hfind)).of_read hread
    obtain ⟨hid, hworkspace, -⟩ := Edit.revise_keeps hrevised
    -- An edit keeps id and workspace, so the row that was loaded is the one to be saved.
    rw [← hrowId, ← hrowWorkspace, ← hloadedId, ← hloadedWorkspace, ← hid, ← hworkspace] at hfind
    obtain ⟨_, -, hcolumn⟩ := bind_eq_ok_iff.mp hread
    obtain ⟨n, hrevision, -⟩ := bind_eq_ok_iff.mp hcolumn
    obtain ⟨hfails, hchanges⟩ := TableStore.saveFlow_of_overflows hfind hrevision hoverflows
    have hperform : (edit flowId change).perform config workspace s =
        ((Editor.save config change loaded s).1.map .flow,
          (Editor.save config change loaded s).2) := by
      simp only [perform, Editor.edit, hget]
    rcases Editor.save_cases config change loaded s with ⟨e, hfailed, -⟩ | ⟨g, hg, heq⟩
    · simp [hrevised] at hfailed
    · obtain rfl : revised = g := Except.ok.inj (hrevised.symm.trans hg)
      rw [hperform, heq]
      refine ⟨?_, hchanges⟩
      show Except.map _ (Except.map _ (Editor.fromStore
        (TableStore.saveFlow revised (change.expectedRevision config loaded) s).1)) = _
      rw [hfails]
      rfl
  | _ => exact h.elim

end EditorRequest

/-- A request that fails changes nothing, wherever it fails; only an edit that overflows in a store
of tables fails and changes its flow. -/
theorem failed_requests_change_nothing (lists : ListStore) (tables : TableStore)
    (config : EditorConfig) (workspace : String) (r : EditorRequest) (asked : EnrollmentRequest) :
    Atomic lists (r.perform config workspace lists) ∧
    Atomic lists (asked.perform workspace lists) ∧
    (¬ r.Overflows config workspace tables → Atomic tables (r.perform config workspace tables)) ∧
    Atomic tables (asked.perform workspace tables) ∧
    (tables.Sound → r.Overflows config workspace tables →
      (r.perform config workspace tables).1 = .error (.store .unreadableRow) ∧
      (r.perform config workspace tables).2 ≠ tables) := by
  refine ⟨?_, asked.atomic_perform workspace lists, EditorRequest.atomic_of_not_overflows,
    asked.atomic_perform workspace tables, EditorRequest.changes_of_overflows⟩
  exact EditorRequest.atomic_perform fun _ _ _ _ _ _ _ _ he ↦ ListStore.saveFlow_of_error he

/-- A store with one flow. -/
def stocked (σ : Type) [Store σ] (f : Flow) : σ := (Store.insertFlow f Store.empty).2

/-- A step is deleted and another one moved before the dependency on the flow itself is found. -/
def selfDependent : EditorRequest :=
  .edit Desk.forked.id.text (.update { Desk.regrafting with
    dependsOn := some [Desk.forked.id.text] } fun _ ↦ "")

theorem failed_requests_change_nothing_self_dependent :
    (selfDependent.perform {} "w" (stocked ListStore Desk.forked)).1 =
      .error (.selfDependency Desk.forked.id) ∧
    (selfDependent.perform {} "w" (stocked ListStore Desk.forked)).2 =
      stocked ListStore Desk.forked ∧
    (selfDependent.perform {} "w" (stocked TableStore Desk.forked)).1 =
      .error (.selfDependency Desk.forked.id) ∧
    ¬ selfDependent.Overflows {} "w" (stocked TableStore Desk.forked) ∧
    (selfDependent.perform {} "w" (stocked TableStore Desk.forked)).2 =
      stocked TableStore Desk.forked := by
  obtain ⟨ofLists, -, ofTables, -, -⟩ := failed_requests_change_nothing
    (stocked ListStore Desk.forked) (stocked TableStore Desk.forked) {} "w" selfDependent
    (.reset "u")
  have hfits : ¬ selfDependent.Overflows {} "w" (stocked TableStore Desk.forked) := by
    rintro ⟨loaded, revised, hget, hrevised, -⟩
    cases hget
    nomatch hrevised
  exact ⟨rfl, ofLists _ rfl, rfl, hfits, ofTables hfits _ rfl⟩

/-- A store with a flow whose revision can be counted up no further. -/
def worn : TableStore := stocked TableStore { Desk.draft with revision := revisionLimit }

/-- Publishing fails, and the flow is live afterwards. -/
theorem failed_publishing_is_written :
    ¬ Atomic worn (EditorRequest.perform {} "w" worn
      (.edit Desk.draft.id.text (.setLive true))) := by
  intro hatomic
  have hsame := hatomic (.store .unreadableRow) rfl
  exact absurd (congrArg (fun s ↦ s.active.map FlowRow.live) hsame) (by decide)

end GuidedTours
