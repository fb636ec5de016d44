import GuidedTours.Proofs.Store.Identity
import GuidedTours.Proofs.Store.UserRecords

/-!
The part of a store that belongs to one workspace: its flows, user states and events, in the order
in which the store has them. A read of a workspace sees its part alone. A write to a workspace acts
on the part as it acts on the whole store, with the same answer, and leaves the parts of all other
workspaces as they are. For an insertion this needs an id that the store does not have, and for the
moves between two tables it needs ids that are distinct, since there an id is taken for all
workspaces at once.
-/

set_option autoImplicit false

namespace GuidedTours

/-- A store that falls into parts. -/
class Parted (σ : Type) where
  part (workspace : String) (s : σ) : σ
  ids (s : σ) : List FlowId
  Sound (s : σ) : Prop

export Parted (part)

section Confined

variable {σ α β : Type} [Parted σ] {workspace : String} {new : List FlowId} {s : σ}

/-- The operation acts on the part of a workspace and on no other; of ids it brings in at most the
new ones. -/
structure Confined (workspace : String) (new : List FlowId) (s : σ) (op : σ → α × σ) : Prop where
  within : op (part workspace s) = ((op s).1, part workspace (op s).2)
  without : ∀ other, other ≠ workspace → part other (op s).2 = part other s
  sound : Parted.Sound (op s).2
  ids : Parted.ids (op s).2 ⊆ new ++ Parted.ids s

/-- What is done may depend on what is read from the part. -/
theorem Confined.of_read {op : σ → α × σ} {g : β → σ → α × σ} (get : σ → β)
    (hget : get (part workspace s) = get s) (hop : ∀ t, op t = g (get t) t)
    (h : Confined workspace new s (g (get s))) : Confined workspace new s op where
  within := by
    rw [hop, hop, hget]
    exact h.within
  without := by
    rw [hop]
    exact h.without
  sound := by
    rw [hop]
    exact h.sound
  ids := by
    rw [hop]
    exact h.ids

theorem Confined.answer (hs : Parted.Sound s) (answer : α) :
    Confined workspace new s fun s ↦ (answer, s) where
  within := rfl
  without _ _ := rfl
  sound := hs
  ids := List.subset_append_right new _

theorem Confined.of_unchanged {op : σ → α × σ} {answer : α} (hs : Parted.Sound s)
    (h : op s = (answer, s)) (hpart : op (part workspace s) = (answer, part workspace s)) :
    Confined workspace new s op where
  within := by
    rw [h, hpart]
  without _ _ := by
    rw [h]
  sound := by
    rw [h]
    exact hs
  ids := by
    rw [h]
    exact List.subset_append_right new _

theorem confined_get {get : σ → α} (hs : Parted.Sound s)
    (hget : get (part workspace s) = get s) : Confined workspace new s fun s ↦ (get s, s) :=
  .of_read get hget (fun _ ↦ rfl) (.answer hs (get s))

theorem Confined.map {op : σ → α × σ} (h : Confined workspace new s op) (f : α → β) :
    Confined workspace new s fun s ↦ (f (op s).1, (op s).2) where
  within := by
    rw [h.within]
  without := h.without
  sound := h.sound
  ids := h.ids

end Confined

/-- A store whose operations are confined each to the part of its workspace. -/
class Partitioned (σ : Type) [Store σ] [Parted σ] : Prop where
  getFlow_part (workspace : String) (id : FlowId) (s : σ) :
    Store.getFlow workspace id (part workspace s) = Store.getFlow workspace id s
  workspace_getFlow {workspace : String} {id : FlowId} {s : σ} {f : Flow} (hs : Parted.Sound s)
    (h : Store.getFlow workspace id s = .ok f) : f.workspace = workspace
  listFlows_part (workspace : String) (s : σ) :
    Store.listFlows workspace (part workspace s) = Store.listFlows workspace s
  listLiveFlows_part (workspace : String) (s : σ) :
    Store.listLiveFlows workspace (part workspace s) = Store.listLiveFlows workspace s
  listArchivedFlows_part (workspace : String) (s : σ) :
    Store.listArchivedFlows workspace (part workspace s) = Store.listArchivedFlows workspace s
  getUserState_part (workspace user : String) (s : σ) :
    Store.getUserState workspace user (part workspace s) = Store.getUserState workspace user s
  listEvents_part (workspace : String) (id : FlowId) (s : σ) :
    Store.listEvents workspace id (part workspace s) = Store.listEvents workspace id s
  insertFlow {s : σ} {f : Flow} (hs : Parted.Sound s) (hnew : f.id ∉ Parted.ids s) :
    Confined f.workspace [f.id] s (Store.insertFlow f)
  saveFlow {s : σ} (hs : Parted.Sound s) (f : Flow) (expected : Option UInt64) :
    Confined f.workspace [] s (Store.saveFlow f expected)
  archiveFlow {s : σ} (hs : Parted.Sound s) (workspace : String) (id : FlowId) :
    Confined workspace [] s (Store.archiveFlow workspace id)
  restoreFlow {s : σ} (hs : Parted.Sound s) (workspace : String) (id : FlowId) :
    Confined workspace [] s (Store.restoreFlow workspace id)
  putUserState {s : σ} (hs : Parted.Sound s) (state : UserState) :
    Confined state.workspace [] s fun s ↦ ((), Store.putUserState state s)
  recordEvents {s : σ} {workspace : String} {events : List TrackedEvent} (hs : Parted.Sound s)
    (h : ∀ e ∈ events, e.workspace = workspace) :
    Confined workspace [] s fun s ↦ ((), Store.recordEvents events s)

section Records

variable {workspace user : String} {state : UserState} {states : List UserState}
  {events new : List TrackedEvent} {id : FlowId}

theorem UserState.workspace_of_isOf (state : UserState) (h : state.isOf workspace user) :
    decide (state.workspace = workspace) := by
  simpa using (isOf_iff.mp h).1

theorem UserState.filter_put (state : UserState) (states : List UserState) :
    (state.put states).filter (·.workspace = state.workspace) =
      state.put (states.filter (·.workspace = state.workspace)) := by
  unfold put
  rw [any_filter_of_forall workspace_of_isOf]
  split
  next => exact filter_modifyFirst workspace_of_isOf fun _ _ ↦ by simp
  next => exact filter_append_of_forall (by simp)

theorem UserState.filter_put_of_ne {other : String} (h : other ≠ state.workspace) :
    (state.put states).filter (·.workspace = other) = states.filter (·.workspace = other) := by
  have hself : ¬ decide (state.workspace = other) := by simpa using h.symm
  unfold put
  split
  next =>
    refine filter_modifyFirst_of_forall (fun t ht ↦ ?_) fun _ _ ↦ hself
    rw [(isOf_iff.mp ht).1]
    exact hself
  next => exact filter_append_of_forall_not (by simpa using hself)

theorem TrackedEvent.filter_append (h : ∀ e ∈ new, e.workspace = workspace) :
    (events ++ new).filter (·.workspace = workspace) =
      events.filter (·.workspace = workspace) ++ new :=
  filter_append_of_forall fun e he ↦ by simpa using h e he

theorem TrackedEvent.filter_append_of_ne {other : String}
    (h : ∀ e ∈ new, e.workspace = workspace) (hother : other ≠ workspace) :
    (events ++ new).filter (·.workspace = other) = events.filter (·.workspace = other) :=
  filter_append_of_forall_not fun e he ↦ by simpa [h e he] using hother.symm

end Records

namespace ListStore

variable {s : ListStore} {workspace other : String} {id : FlowId} {f : Flow}

instance : Parted ListStore where
  part workspace s :=
    { active := s.active.filter (·.workspace = workspace)
      archived := s.archived.filter (·.workspace = workspace)
      users := s.users.filter (·.workspace = workspace)
      events := s.events.filter (·.workspace = workspace) }
  ids := ids
  Sound _ := True

theorem workspace_of_owns (g : Flow) (h : owns workspace id g) :
    decide (g.workspace = workspace) := by
  simpa using (owns_iff.mp h).2

theorem not_workspace_of_owns (h : other ≠ workspace) (g : Flow) (hg : owns workspace id g) :
    ¬ decide (g.workspace = other) := by
  have hworkspace := (owns_iff.mp hg).2
  simpa [hworkspace] using h.symm

theorem find?_part (fs : List Flow) :
    find? (fs.filter (·.workspace = workspace)) workspace id = find? fs workspace id :=
  find?_filter_of_forall workspace_of_owns

theorem insertFlow_of_new (h : f.id ∉ s.active.map Flow.id) :
    insertFlow f s = (.ok (), { s with active := s.active ++ [f] }) := by
  rcases insertFlow_cases f s with ⟨⟨g, hg, hid⟩, -⟩ | ⟨-, heq⟩
  · exact absurd (List.mem_map.mpr ⟨g, hg, hid⟩) h
  · exact heq

variable {α : Type} {op : ListStore → α × ListStore} {answer : α} {active archived : List Flow}
  {new : List FlowId}

/-- What there is to show of an operation that writes flows. -/
theorem confined_of_eq (h : op s = (answer, { s with active, archived }))
    (hpart : op (part workspace s) = (answer, { part workspace s with
      active := active.filter (·.workspace = workspace)
      archived := archived.filter (·.workspace = workspace) }))
    (hactive : ∀ other ≠ workspace, active.filter (·.workspace = other) =
      s.active.filter (·.workspace = other))
    (harchived : ∀ other ≠ workspace, archived.filter (·.workspace = other) =
      s.archived.filter (·.workspace = other))
    (hids : active.map Flow.id ++ archived.map Flow.id ⊆ new ++ s.ids) :
    Confined workspace new s op where
  within := by
    rw [h, hpart]
    rfl
  without other hother := by
    rw [h]
    show ListStore.mk _ _ _ _ = ListStore.mk _ _ _ _
    rw [hactive other hother, harchived other hother]
  sound := trivial
  ids := by
    rw [h]
    show (active ++ archived).map Flow.id ⊆ new ++ s.ids
    rw [List.map_append]
    exact hids

theorem confined_insertFlow (hnew : f.id ∉ s.ids) :
    Confined f.workspace [f.id] s (insertFlow f) := by
  have hactive : f.id ∉ s.active.map Flow.id := fun h ↦ hnew (by simp [ids, flows, h])
  have hpart : f.id ∉ (part f.workspace s).active.map Flow.id :=
    fun h ↦ hactive ((List.filter_sublist.map Flow.id).subset h)
  refine confined_of_eq (insertFlow_of_new hactive) ?_ (fun other hother ↦ ?_) (fun _ _ ↦ rfl) ?_
  · rw [insertFlow_of_new hpart, filter_append_of_forall (by simp)]
    rfl
  · exact filter_append_of_forall_not (by simpa using hother.symm)
  · simp [ids, flows]

theorem confined_saveFlow (f : Flow) (expected : Option UInt64) (s : ListStore) :
    Confined f.workspace [] s (saveFlow f expected) := by
  have hfind : find? (part f.workspace s).active f.workspace f.id =
      find? s.active f.workspace f.id := find?_part s.active
  cases hstored : find? s.active f.workspace f.id with
  | none =>
    have heq : saveFlow f expected s = (.error (.flowNotFound f.id), s) := by
      simp only [saveFlow, hstored]
    exact .of_unchanged trivial heq (by simp only [saveFlow, hfind, hstored])
  | some stored =>
    cases hconflict : expected.filter (· ≠ stored.revision) with
    | some e =>
      have heq : saveFlow f expected s = (.error (.conflict f.id e stored.revision), s) := by
        simp only [saveFlow, hstored, hconflict]
      exact .of_unchanged trivial heq (by simp only [saveFlow, hfind, hstored, hconflict])
    | none =>
      have heq : saveFlow f expected s = (.ok (stored.revision + 1), { s with
          active := modifyFirst (owns f.workspace f.id)
            (fun _ ↦ { f with revision := stored.revision + 1 }) s.active }) := by
        simp only [saveFlow, hstored, hconflict]
      refine confined_of_eq heq ?_ (fun other hother ↦ ?_) (fun _ _ ↦ rfl) ?_
      · rw [filter_modifyFirst workspace_of_owns fun _ _ ↦ by simp]
        simp only [saveFlow, hfind, hstored, hconflict]
        rfl
      · exact filter_modifyFirst_of_forall (not_workspace_of_owns hother)
          fun _ _ ↦ by simpa using hother.symm
      · have hids : (modifyFirst (owns f.workspace f.id)
            (fun _ ↦ { f with revision := stored.revision + 1 }) s.active).map Flow.id =
              s.active.map Flow.id := map_modifyFirst fun g hg ↦ (owns_iff.mp hg).1.symm
        rw [hids]
        simp [ids, flows]

theorem confined_archiveFlow (workspace : String) (id : FlowId) (s : ListStore) :
    Confined workspace [] s (archiveFlow workspace id) := by
  have hfind : find? (part workspace s).active workspace id = find? s.active workspace id :=
    find?_part s.active
  rcases archiveFlow_cases workspace id s with ⟨hnone, heq⟩ | ⟨f, hf, heq⟩
  · refine .of_unchanged trivial heq ?_
    rw [archiveFlow, hfind, hnone]
  · have hworkspace : f.workspace = workspace := (find?_some hf).2.2
    refine confined_of_eq heq ?_ (fun other hother ↦ ?_) (fun other hother ↦ ?_) ?_
    · rw [archiveFlow, hfind, hf, filter_eraseP workspace_of_owns,
        filter_append_of_forall (by simpa using hworkspace)]
      rfl
    · exact filter_eraseP_of_forall (not_workspace_of_owns hother)
    · exact filter_append_of_forall_not (by simpa [hworkspace] using hother.symm)
    · have hperm := ((archiveFlow_perm workspace id s).map Flow.id).subset
      simpa [heq, flows, ids] using hperm

theorem confined_restoreFlow (workspace : String) (id : FlowId) (s : ListStore) :
    Confined workspace [] s (restoreFlow workspace id) := by
  have hfind : find? (part workspace s).archived workspace id = find? s.archived workspace id :=
    find?_part s.archived
  rcases restoreFlow_cases workspace id s with ⟨hnone, heq⟩ | ⟨f, hf, heq⟩
  · refine .of_unchanged trivial heq ?_
    rw [restoreFlow, hfind, hnone]
  · have hworkspace : f.workspace = workspace := (find?_some hf).2.2
    refine confined_of_eq heq ?_ (fun other hother ↦ ?_) (fun other hother ↦ ?_) ?_
    · rw [restoreFlow, hfind, hf, filter_eraseP workspace_of_owns,
        filter_append_of_forall (by simpa using hworkspace)]
      rfl
    · exact filter_append_of_forall_not (by simpa [hworkspace] using hother.symm)
    · exact filter_eraseP_of_forall (not_workspace_of_owns hother)
    · have hperm := ((restoreFlow_perm workspace id s).map Flow.id).subset
      simpa [heq, flows, ids] using hperm

instance : Partitioned ListStore where
  getFlow_part workspace id s := by
    have hfind : find? (part workspace s).active workspace id = find? s.active workspace id :=
      find?_part s.active
    show getFlow workspace id (part workspace s) = getFlow workspace id s
    rw [getFlow, hfind, getFlow]
  workspace_getFlow _ h := (find?_some (getFlow_eq_ok_iff.mp h)).2.2
  listFlows_part _ _ := congrArg Except.ok (filter_filter_of_forall fun _ h ↦ h)
  listLiveFlows_part _ _ :=
    congrArg Except.ok (filter_filter_of_forall fun _ h ↦ Bool.and_elim_left h)
  listArchivedFlows_part _ _ := congrArg Except.ok (filter_filter_of_forall fun _ h ↦ h)
  getUserState_part workspace user s := find?_filter_of_forall UserState.workspace_of_isOf
  listEvents_part _ _ _ := filter_filter_of_forall fun _ h ↦ Bool.and_elim_left h
  insertFlow _ hnew := confined_insertFlow hnew
  saveFlow {s} _ f expected := confined_saveFlow f expected s
  archiveFlow {s} _ workspace id := confined_archiveFlow workspace id s
  restoreFlow {s} _ workspace id := confined_restoreFlow workspace id s
  putUserState {s} _ state :=
    { within := congrArg (fun users ↦ ((), { part state.workspace s with users }))
        (state.filter_put s.users).symm
      without := fun other hother ↦ congrArg (fun users ↦ { part other s with users })
        (UserState.filter_put_of_ne hother)
      sound := trivial
      ids := fun _ h ↦ h }
  recordEvents {s workspace _} _ h :=
    { within := congrArg (fun events ↦ ((), { part workspace s with events }))
        (TrackedEvent.filter_append h).symm
      without := fun other hother ↦ congrArg (fun events ↦ { part other s with events })
        (TrackedEvent.filter_append_of_ne h hother)
      sound := trivial
      ids := fun _ h ↦ h }

end ListStore

namespace TableStore

variable {s : TableStore} {workspace other : String} {id : FlowId} {f : Flow}

def ids (s : TableStore) : List FlowId :=
  s.active.map FlowRow.id ++ s.archived.map ArchivedRow.id

/-- The rows are sound, and no id stands in both tables. -/
structure Apart (s : TableStore) : Prop extends Sound s where
  apart : ∀ id ∈ s.active.map FlowRow.id, id ∉ s.archived.map ArchivedRow.id

theorem Apart.empty : Apart (Store.empty : TableStore) :=
  ⟨Sound.empty, fun _ h ↦ absurd h List.not_mem_nil⟩

instance : Parted TableStore where
  part workspace s :=
    { active := s.active.filter (·.workspace = workspace)
      archived := s.archived.filter (·.workspace = workspace)
      users := s.users.filter (·.workspace = workspace)
      events := s.events.filter (·.workspace = workspace) }
  ids := ids
  Sound := Apart

theorem workspace_of_owns (r : FlowRow) (h : r.owns workspace id) :
    decide (r.workspace = workspace) := by
  simpa using (FlowRow.owns_iff.mp h).2

theorem workspace_of_archivedOwns (r : ArchivedRow) (h : r.owns workspace id) :
    decide (r.workspace = workspace) := by
  simpa using (ArchivedRow.owns_iff.mp h).2

theorem not_workspace_of_owns (h : other ≠ workspace) (r : FlowRow) (hr : r.owns workspace id) :
    ¬ decide (r.workspace = other) := by
  have hworkspace := (FlowRow.owns_iff.mp hr).2
  simpa [hworkspace] using h.symm

theorem not_workspace_of_archivedOwns (h : other ≠ workspace) (r : ArchivedRow)
    (hr : r.owns workspace id) : ¬ decide (r.workspace = other) := by
  have hworkspace := (ArchivedRow.owns_iff.mp hr).2
  simpa [hworkspace] using h.symm

theorem find?_active_part (workspace : String) (id : FlowId) (s : TableStore) :
    (part workspace s).active.find? (FlowRow.owns workspace id) =
      s.active.find? (FlowRow.owns workspace id) :=
  find?_filter_of_forall workspace_of_owns

theorem find?_archived_part (workspace : String) (id : FlowId) (s : TableStore) :
    (part workspace s).archived.find? (ArchivedRow.owns workspace id) =
      s.archived.find? (ArchivedRow.owns workspace id) :=
  find?_filter_of_forall workspace_of_archivedOwns

theorem getFlow_part (workspace : String) (id : FlowId) (s : TableStore) :
    getFlow workspace id (part workspace s) = getFlow workspace id s := by
  rw [getFlow, find?_active_part, getFlow]

variable {α : Type} {op : TableStore → α × TableStore} {answer : α} {active : List FlowRow}
  {archived : List ArchivedRow} {new : List FlowId}

/-- What there is to show of an operation that writes rows. -/
theorem confined_of_eq (h : op s = (answer, { s with active, archived }))
    (hpart : op (part workspace s) = (answer, { part workspace s with
      active := active.filter (·.workspace = workspace)
      archived := archived.filter (·.workspace = workspace) }))
    (hactive : ∀ other ≠ workspace, active.filter (·.workspace = other) =
      s.active.filter (·.workspace = other))
    (harchived : ∀ other ≠ workspace, archived.filter (·.workspace = other) =
      s.archived.filter (·.workspace = other))
    (hsound : Sound (op s).2)
    (hapart : ∀ id ∈ active.map FlowRow.id, id ∉ archived.map ArchivedRow.id)
    (hids : active.map FlowRow.id ++ archived.map ArchivedRow.id ⊆ new ++ s.ids) :
    Confined workspace new s op where
  within := by
    rw [h, hpart]
    rfl
  without other hother := by
    rw [h]
    show TableStore.mk _ _ _ _ = TableStore.mk _ _ _ _
    rw [hactive other hother, harchived other hother]
  sound := by
    rw [h] at hsound ⊢
    exact ⟨hsound, hapart⟩
  ids := by
    rw [h]
    exact hids

theorem insertRow_of_new {row : FlowRow} (h : row.id ∉ s.active.map FlowRow.id) :
    insertRow row s = (.ok (), { s with active := s.active ++ [row] }) := by
  rcases insertRow_cases row s with ⟨⟨r, hr, hid⟩, -⟩ | ⟨-, heq⟩
  · exact absurd (List.mem_map.mpr ⟨r, hr, hid⟩) h
  · exact heq

theorem insertRow_part_of_new {row : FlowRow} (h : row.id ∉ s.active.map FlowRow.id)
    (hrow : row.workspace = workspace) :
    insertRow row (part workspace s) = (.ok (), { part workspace s with
      active := (s.active ++ [row]).filter (·.workspace = workspace) }) := by
  have hpart : row.id ∉ (part workspace s).active.map FlowRow.id :=
    fun hmem ↦ h ((List.filter_sublist.map FlowRow.id).subset hmem)
  rw [insertRow_of_new hpart, filter_append_of_forall (by simpa using hrow)]
  rfl

theorem confined_insertFlow (hs : s.Apart) (hnew : f.id ∉ s.ids) :
    Confined f.workspace [f.id] s (insertRow (.ofFlow f.workspace f)) := by
  obtain ⟨hactive, harchived⟩ := not_or.mp (mt List.mem_append.mpr hnew)
  refine confined_of_eq (insertRow_of_new hactive) (insertRow_part_of_new hactive rfl)
    (fun other hother ↦ filter_append_of_forall_not ?_) (fun _ _ ↦ rfl)
    (hs.toSound.insertFlow f) (fun id hid ↦ ?_) ?_
  · simpa [FlowRow.ofFlow] using hother.symm
  · rw [List.map_append, List.mem_append] at hid
    rcases hid with hid | hid
    · exact hs.apart id hid
    · obtain rfl : id = f.id := by simpa [FlowRow.ofFlow] using hid
      exact harchived
  · simp [ids, FlowRow.ofFlow]

theorem confined_saveFlow (hs : s.Apart) (f : Flow) (expected : Option UInt64) :
    Confined f.workspace [] s (saveFlow f expected) := by
  have hfind := find?_active_part f.workspace f.id s
  cases hrow : s.active.find? (FlowRow.owns f.workspace f.id) with
  | none =>
    have heq : saveFlow f expected s = (.error (.flowNotFound f.id), s) := by
      simp only [saveFlow, hrow]
    exact .of_unchanged hs heq (by simp only [saveFlow, hfind, hrow])
  | some row =>
    cases hconflict : expected.filter fun e ↦ row.revision ≠ .ofRevision e with
    | some e =>
      have heq : saveFlow f expected s = (row.revision.read.bind fun actual ↦
          .error (.conflict f.id e actual), s) := by
        simp only [saveFlow, hrow, hconflict]
      exact .of_unchanged hs heq (by simp only [saveFlow, hfind, hrow, hconflict])
    | none =>
      have heq : saveFlow f expected s = (row.revision.next.read, { s with
          active := modifyFirst (FlowRow.owns f.workspace f.id)
            (fun r ↦ { r with live := f.live, revision := row.revision.next, document := f })
            s.active }) := by
        simp only [saveFlow, hrow, hconflict]
      have hids : (modifyFirst (FlowRow.owns f.workspace f.id)
          (fun r ↦ { r with live := f.live, revision := row.revision.next, document := f })
          s.active).map FlowRow.id = s.active.map FlowRow.id := map_modifyFirst fun _ _ ↦ rfl
      refine confined_of_eq heq ?_ (fun other hother ↦ ?_) (fun _ _ ↦ rfl)
        (hs.toSound.saveFlow f expected) ?_ ?_
      · rw [filter_modifyFirst workspace_of_owns (by exact workspace_of_owns)]
        simp only [saveFlow, hfind, hrow, hconflict]
        rfl
      · exact filter_modifyFirst_of_forall (not_workspace_of_owns hother)
          fun r hr ↦ not_workspace_of_owns hother r hr
      · rw [hids]
        exact hs.apart
      · rw [hids]
        exact fun _ h ↦ h

theorem confined_archiveFlow (hs : s.Apart) (workspace : String) (id : FlowId) :
    Confined workspace [] s (archiveFlow workspace id) := by
  have hgetPart := getFlow_part workspace id s
  cases hget : getFlow workspace id s with
  | error e =>
    have heq : archiveFlow workspace id s = (.error e, s) := by simp only [archiveFlow, hget]
    exact .of_unchanged hs heq (by simp only [archiveFlow, hgetPart, hget])
  | ok f =>
    obtain ⟨row, hrow, -⟩ := getFlow_eq_ok_iff.mp hget
    have hmem : row ∈ s.active := List.mem_of_find?_eq_some hrow
    have hid : row.id = id := (FlowRow.owns_iff.mp (List.find?_some hrow)).1
    have hnew : id ∉ s.archived.map ArchivedRow.id :=
      hs.apart id (List.mem_map.mpr ⟨row, hmem, hid⟩)
    have hfree : ∀ rows : List ArchivedRow, rows ⊆ s.archived → ¬ rows.any (·.id = id) := by
      intro rows hrows htaken
      obtain ⟨r, hr, hrid⟩ := List.any_eq_true.mp htaken
      exact hnew (List.mem_map.mpr ⟨r, hrows hr, by simpa using hrid⟩)
    have heq : archiveFlow workspace id s = (.ok (), { s with
        active := s.active.filter fun r ↦ !r.owns workspace id
        archived := s.archived ++ [⟨id, workspace, f⟩] }) := by
      simp only [archiveFlow, hget, if_neg (hfree s.archived fun _ h ↦ h)]
    refine confined_of_eq heq ?_ (fun other hother ↦ ?_) (fun other hother ↦ ?_)
      (hs.toSound.archiveFlow workspace id) (fun other hother ↦ ?_) ?_
    · have hpart : ¬ (part workspace s).archived.any (·.id = id) :=
        hfree _ (List.filter_subset_self s.archived)
      rw [filter_append_of_forall (by simp), List.filter_comm]
      simp only [archiveFlow, hgetPart, hget, if_neg hpart]
      rfl
    · refine filter_filter_of_forall fun r hr ↦ ?_
      by_contra howned
      exact not_workspace_of_owns hother r (by simpa using howned) hr
    · exact filter_append_of_forall_not (by simpa using hother.symm)
    · obtain ⟨r, hr, rfl⟩ := List.mem_map.mp hother
      have hne : r.id ≠ id :=
        hid ▸ key_ne_of_mem_filter_not hs.activeKeys hmem (List.find?_some hrow) hr
      have hold := hs.apart r.id (List.mem_map_of_mem (List.mem_of_mem_filter hr))
      simpa [hne] using hold
    · show _ ⊆ s.ids
      intro key hkey
      simp only [List.map_append, List.map_cons, List.map_nil, List.mem_append,
        List.mem_singleton] at hkey
      rcases hkey with hkey | hkey | rfl
      · exact List.mem_append_left _ ((List.filter_sublist.map FlowRow.id).subset hkey)
      · exact List.mem_append_right _ hkey
      · exact List.mem_append_left _ (List.mem_map.mpr ⟨row, hmem, hid⟩)

theorem confined_restoreFlow (hs : s.Apart) (workspace : String) (id : FlowId) :
    Confined workspace [] s (restoreFlow workspace id) := by
  have hfind := find?_archived_part workspace id s
  cases hrow : s.archived.find? (ArchivedRow.owns workspace id) with
  | none =>
    have heq : restoreFlow workspace id s = (.error (.archivedFlowNotFound id), s) := by
      simp only [restoreFlow, hrow]
    exact .of_unchanged hs heq (by simp only [restoreFlow, hfind, hrow])
  | some row =>
    cases hread : row.read with
    | error e =>
      have heq : restoreFlow workspace id s = (.error e, s) := by
        simp only [restoreFlow, hrow, hread]
      exact .of_unchanged hs heq (by simp only [restoreFlow, hfind, hrow, hread])
    | ok f =>
      have hmem : row ∈ s.archived := List.mem_of_find?_eq_some hrow
      have hid : row.id = id := (ArchivedRow.owns_iff.mp (List.find?_some hrow)).1
      have hold : id ∈ s.archived.map ArchivedRow.id := List.mem_map.mpr ⟨row, hmem, hid⟩
      have hnew : ({ FlowRow.ofFlow workspace f with id } : FlowRow).id ∉
          s.active.map FlowRow.id := fun h ↦ hs.apart id h hold
      have heq : restoreFlow workspace id s = (.ok (), { s with
          active := s.active ++ [{ FlowRow.ofFlow workspace f with id }]
          archived := s.archived.filter fun r ↦ !r.owns workspace id }) := by
        simp only [restoreFlow, hrow, hread, insertRow_of_new hnew]
      refine confined_of_eq heq ?_ (fun other hother ↦ ?_) (fun other hother ↦ ?_)
        (hs.toSound.restoreFlow workspace id) (fun key hkey hmoved ↦ ?_) ?_
      · have hinsert : insertRow { FlowRow.ofFlow workspace f with id } (part workspace s) =
            (.ok (), { part workspace s with
              active := (s.active ++ [{ FlowRow.ofFlow workspace f with id }]).filter
                (·.workspace = workspace) }) := insertRow_part_of_new hnew rfl
        rw [List.filter_comm]
        simp only [restoreFlow, hfind, hrow, hread, hinsert]
        rfl
      · exact filter_append_of_forall_not (by simpa [FlowRow.ofFlow] using hother.symm)
      · refine filter_filter_of_forall fun r hr ↦ ?_
        by_contra howned
        exact not_workspace_of_archivedOwns hother r (by simpa using howned) hr
      · obtain ⟨r, hr, rfl⟩ := List.mem_map.mp hmoved
        have hne : r.id ≠ id :=
          hid ▸ key_ne_of_mem_filter_not hs.archivedKeys hmem (List.find?_some hrow) hr
        rw [List.map_append, List.mem_append] at hkey
        rcases hkey with hkey | hkey
        · exact hs.apart r.id hkey (List.mem_map_of_mem (List.mem_of_mem_filter hr))
        · exact hne (by simpa using hkey)
      · show _ ⊆ s.ids
        intro key hkey
        simp only [List.map_append, List.map_cons, List.map_nil, List.mem_append,
          List.mem_singleton] at hkey
        rcases hkey with (hkey | rfl) | hkey
        · exact List.mem_append_left _ hkey
        · exact List.mem_append_right _ hold
        · exact List.mem_append_right _ ((List.filter_sublist.map ArchivedRow.id).subset hkey)

instance : Partitioned TableStore where
  getFlow_part := getFlow_part
  workspace_getFlow {workspace id s f} hs h := by
    obtain ⟨row, hrow, hread⟩ := getFlow_eq_ok_iff.mp h
    have hfaithful := hs.active row (List.mem_of_find?_eq_some hrow)
    exact (hfaithful.of_read hread).2.1.trans (FlowRow.owns_iff.mp (List.find?_some hrow)).2
  listFlows_part _ _ :=
    congrArg (List.mapM FlowRow.read) (filter_filter_of_forall fun _ h ↦ h)
  listLiveFlows_part _ _ :=
    congrArg (List.mapM FlowRow.read) (filter_filter_of_forall fun _ h ↦ Bool.and_elim_left h)
  listArchivedFlows_part _ _ :=
    congrArg (List.mapM ArchivedRow.read) (filter_filter_of_forall fun _ h ↦ h)
  getUserState_part workspace user s := find?_filter_of_forall UserState.workspace_of_isOf
  listEvents_part _ _ _ := filter_filter_of_forall fun _ h ↦ Bool.and_elim_left h
  insertFlow hs hnew := confined_insertFlow hs hnew
  saveFlow hs f expected := confined_saveFlow hs f expected
  archiveFlow hs workspace id := confined_archiveFlow hs workspace id
  restoreFlow hs workspace id := confined_restoreFlow hs workspace id
  putUserState {s} hs state :=
    { within := congrArg (fun users ↦ ((), { part state.workspace s with users }))
        (state.filter_put s.users).symm
      without := fun other hother ↦ congrArg (fun users ↦ { part other s with users })
        (UserState.filter_put_of_ne hother)
      sound := ⟨⟨hs.active, hs.archived, hs.activeKeys, hs.archivedKeys⟩, hs.apart⟩
      ids := fun _ h ↦ h }
  recordEvents {s workspace _} hs h :=
    { within := congrArg (fun events ↦ ((), { part workspace s with events }))
        (TrackedEvent.filter_append h).symm
      without := fun other hother ↦ congrArg (fun events ↦ { part other s with events })
        (TrackedEvent.filter_append_of_ne h hother)
      sound := ⟨⟨hs.active, hs.archived, hs.activeKeys, hs.archivedKeys⟩, hs.apart⟩
      ids := fun _ h ↦ h }

end TableStore

end GuidedTours
