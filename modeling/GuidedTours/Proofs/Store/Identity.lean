import GuidedTours.Proofs.Editor.Schedule
import GuidedTours.Proofs.Store.Listing
import GuidedTours.Proofs.Store.Rows

/-!
Whether an id names one flow. A store of tables never has two active flows or two archived flows
with one id, since both of its tables refuse a second row. A store of lists asks for the id at an
insertion only. A flow can get into the archive beside another with its id, and out of it beside
one that was inserted meanwhile; these moves and no others bring about a second flow with an id.
If no id of the archive is ever inserted anew, the ids stay distinct, and even those of the active
and the archived flows taken together.
-/

set_option autoImplicit false

namespace GuidedTours

open StoreRequest

namespace TableStore

/-- No two active flows have one id, and no two archived ones. -/
structure DistinctIds (s : TableStore) : Prop where
  active : (s.active.map fun r ↦ r.document.id).Nodup
  archived : (s.archived.map fun r ↦ r.document.id).Nodup

theorem Sound.distinctIds {s : TableStore} (h : s.Sound) : s.DistinctIds := by
  have hactive : s.active.map (fun r ↦ r.document.id) = s.active.map FlowRow.id :=
    List.map_congr_left fun r hr ↦ (h.active r hr).id_eq.symm
  have harchived : s.archived.map (fun r ↦ r.document.id) = s.archived.map ArchivedRow.id :=
    List.map_congr_left fun r hr ↦ (h.archived r hr).id_eq.symm
  exact ⟨hactive ▸ h.activeKeys, harchived ▸ h.archivedKeys⟩

end TableStore

namespace ListStore

variable {s : ListStore} {f : Flow} {workspace : String} {id : FlowId}

structure DistinctIds (s : ListStore) : Prop where
  active : (s.active.map Flow.id).Nodup
  archived : (s.archived.map Flow.id).Nodup

/-- The request moves a flow to where another has its id. -/
def Collides (s : ListStore) : StoreRequest → Prop
  | .archiveFlow workspace id =>
    (∃ f, find? s.active workspace id = some f) ∧ ∃ f ∈ s.archived, f.id = id
  | .restoreFlow workspace id =>
    (∃ f, find? s.archived workspace id = some f) ∧ ∃ f ∈ s.active, f.id = id
  | _ => False

/-- The request inserts no flow with an id of the archive. -/
def Fresh (s : ListStore) : StoreRequest → Prop
  | .insertFlow f => ∀ g ∈ s.archived, g.id ≠ f.id
  | _ => True

theorem distinctIds_archiveFlow_iff (h : s.DistinctIds) :
    (archiveFlow workspace id s).2.DistinctIds ↔ ¬ s.Collides (.archiveFlow workspace id) := by
  rcases archiveFlow_cases workspace id s with ⟨hnone, heq⟩ | ⟨f, hfind, heq⟩
  · rw [heq]
    refine iff_of_true h fun hcollides ↦ ?_
    obtain ⟨⟨f, hsome⟩, -⟩ := hcollides
    simp [hnone] at hsome
  · obtain ⟨-, rfl, -⟩ := find?_some hfind
    have hcollides : s.Collides (.archiveFlow workspace f.id) ↔ ∃ g ∈ s.archived, g.id = f.id :=
      and_iff_right ⟨f, hfind⟩
    rw [heq, hcollides]
    push Not
    constructor
    · intro hdistinct
      exact (nodup_map_append_singleton.mp hdistinct.archived).2
    · intro hnew
      exact ⟨h.active.sublist (List.eraseP_sublist.map Flow.id),
        nodup_map_append_singleton.mpr ⟨h.archived, hnew⟩⟩

theorem distinctIds_restoreFlow_iff (h : s.DistinctIds) :
    (restoreFlow workspace id s).2.DistinctIds ↔ ¬ s.Collides (.restoreFlow workspace id) := by
  rcases restoreFlow_cases workspace id s with ⟨hnone, heq⟩ | ⟨f, hfind, heq⟩
  · rw [heq]
    refine iff_of_true h fun hcollides ↦ ?_
    obtain ⟨⟨f, hsome⟩, -⟩ := hcollides
    simp [hnone] at hsome
  · obtain ⟨-, rfl, -⟩ := find?_some hfind
    have hcollides : s.Collides (.restoreFlow workspace f.id) ↔ ∃ g ∈ s.active, g.id = f.id :=
      and_iff_right ⟨f, hfind⟩
    rw [heq, hcollides]
    push Not
    constructor
    · intro hdistinct
      exact (nodup_map_append_singleton.mp hdistinct.active).2
    · intro hnew
      exact ⟨nodup_map_append_singleton.mpr ⟨h.active, hnew⟩,
        h.archived.sublist (List.eraseP_sublist.map Flow.id)⟩

theorem distinctIds_insertFlow (h : s.DistinctIds) (f : Flow) :
    (insertFlow f s).2.DistinctIds := by
  rcases insertFlow_cases f s with ⟨-, heq⟩ | ⟨hnew, heq⟩
  · rw [heq]
    exact h
  · rw [heq]
    exact ⟨nodup_map_append_singleton.mpr ⟨h.active, hnew⟩, h.archived⟩

theorem distinctIds_saveFlow (h : s.DistinctIds) (f : Flow) (expected : Option UInt64) :
    (saveFlow f expected s).2.DistinctIds := by
  rcases saveFlow_cases f expected s with ⟨-, heq⟩ | ⟨stored, -, ⟨e, -, -, heq⟩ | ⟨-, heq⟩⟩
  · rw [heq]
    exact h
  · rw [heq]
    exact h
  · rw [heq]
    have hids : (modifyFirst (owns f.workspace f.id)
        (fun _ ↦ { f with revision := stored.revision + 1 }) s.active).map Flow.id =
          s.active.map Flow.id :=
      map_modifyFirst fun g hg ↦ (owns_iff.mp hg).1.symm
    exact ⟨hids.symm ▸ h.active, h.archived⟩

/-- Exactly the colliding requests bring about a second flow with an id. -/
theorem distinctIds_perform_iff (h : s.DistinctIds) (r : StoreRequest) :
    (r.perform s).2.DistinctIds ↔ ¬ s.Collides r := by
  cases r with
  | insertFlow f => exact iff_of_true (distinctIds_insertFlow h f) not_false
  | saveFlow f expected => exact iff_of_true (distinctIds_saveFlow h f expected) not_false
  | archiveFlow workspace id => exact distinctIds_archiveFlow_iff h
  | restoreFlow workspace id => exact distinctIds_restoreFlow_iff h
  | putUserState _ | recordEvents _ => exact iff_of_true ⟨h.active, h.archived⟩ not_false
  | getFlow _ _ | listFlows _ | listLiveFlows _ | listArchivedFlows _ | getUserState _ _
  | listEvents _ _ => exact iff_of_true h not_false

theorem always_distinctIds_iff (h : s.DistinctIds) (requests : List StoreRequest) :
    Always DistinctIds s requests ↔ Along (fun s r ↦ ¬ s.Collides r) s requests := by
  induction requests generalizing s with
  | nil => exact iff_of_true h trivial
  | cons r rest ih =>
    constructor
    · intro halways
      have hnext : (r.perform s).2.DistinctIds := halways.2.first
      exact ⟨(distinctIds_perform_iff h r).mp hnext, (ih hnext).mp halways.2⟩
    · intro halong
      exact ⟨h, (ih ((distinctIds_perform_iff h r).mpr halong.1)).mpr halong.2⟩

/-- The ids of all flows taken together. -/
def ids (s : ListStore) : List FlowId := s.flows.map Flow.id

theorem nodup_ids_perform (r : StoreRequest) (h : s.ids.Nodup) (hfresh : s.Fresh r) :
    (r.perform s).2.ids.Nodup := by
  cases r with
  | insertFlow f =>
    rcases insertFlow_cases f s with ⟨-, heq⟩ | ⟨hnew, heq⟩
    · exact (congrArg (fun result ↦ result.2.ids.Nodup) heq).mpr h
    · rcases insertFlow_perm f s with hsame | ⟨-, hperm⟩
      · exact (congrArg (fun s ↦ s.ids.Nodup) hsame).mpr h
      · have hf : f.id ∉ s.ids := by
          intro hmem
          obtain ⟨g, hg, hid⟩ := List.mem_map.mp hmem
          rcases List.mem_append.mp hg with hg | hg
          · exact hnew g hg hid
          · exact hfresh g hg hid
        exact (hperm.map Flow.id).nodup_iff.mpr (List.nodup_cons.mpr ⟨hf, h⟩)
  | saveFlow f expected =>
    rcases saveFlow_cases f expected s with ⟨-, heq⟩ | ⟨stored, hfind, ⟨e, -, -, heq⟩ | ⟨he, -⟩⟩
    · exact (congrArg (fun result ↦ result.2.ids.Nodup) heq).mpr h
    · exact (congrArg (fun result ↦ result.2.ids.Nodup) heq).mpr h
    · obtain ⟨rest, hbefore, hafter⟩ := saveFlow_perm hfind he
      have hid : stored.id = f.id := (find?_some hfind).2.1
      have hids := (hbefore.map Flow.id).nodup_iff.mp h
      rw [List.map_cons, hid] at hids
      exact (hafter.map Flow.id).nodup_iff.mpr hids
  | archiveFlow workspace id =>
    exact ((archiveFlow_perm workspace id s).map Flow.id).nodup_iff.mpr h
  | restoreFlow workspace id =>
    exact ((restoreFlow_perm workspace id s).map Flow.id).nodup_iff.mpr h
  | putUserState _ | recordEvents _ => exact h
  | getFlow _ _ | listFlows _ | listLiveFlows _ | listArchivedFlows _ | getUserState _ _
  | listEvents _ _ => exact h

theorem distinctIds_of_nodup (h : s.ids.Nodup) : s.DistinctIds := by
  have happend : (s.active.map Flow.id ++ s.archived.map Flow.id).Nodup := by
    rw [← List.map_append]
    exact h
  exact ⟨(List.nodup_append.mp happend).1, (List.nodup_append.mp happend).2.1⟩

end ListStore

/-- When the ids of active flows are distinct, and those of archived flows: in a store of tables at
all times, in a store of lists as long as no flow is moved to where another has its id, and so if
no id of the archive is inserted. -/
theorem distinct_ids_at_all_times (requests : List StoreRequest) :
    Always TableStore.DistinctIds Store.empty requests ∧
    (Always ListStore.DistinctIds Store.empty requests ↔
      Along (fun s r ↦ ¬ ListStore.Collides s r) Store.empty requests) ∧
    (Along ListStore.Fresh Store.empty requests →
      Always ListStore.DistinctIds Store.empty requests) := by
  have htables : Always TableStore.Sound Store.empty requests :=
    always_of_kept TableStore.Sound.kept TableStore.Sound.empty requests
  have hlists : ListStore.DistinctIds Store.empty := ⟨List.nodup_nil, List.nodup_nil⟩
  refine ⟨htables.mono fun s h ↦ h.distinctIds, ListStore.always_distinctIds_iff hlists requests,
    fun hfresh ↦ ?_⟩
  have hids : Always (fun s : ListStore ↦ s.ids.Nodup) Store.empty requests :=
    always_of_along (fun _ r h hr ↦ ListStore.nodup_ids_perform r h hr) List.nodup_nil hfresh
  exact hids.mono fun s h ↦ ListStore.distinctIds_of_nodup h

/-- A flow is restored after another one has been inserted. -/
def overtaking : List StoreRequest := [
  .insertFlow Desk.draft, .archiveFlow "w" Desk.draft.id,
  .insertFlow { Desk.draft with id := ⟨8⟩ }, .restoreFlow "w" Desk.draft.id]

theorem distinct_ids_at_all_times_overtaking :
    Along ListStore.Fresh Store.empty overtaking ∧
    Always ListStore.DistinctIds Store.empty overtaking ∧
    Always TableStore.DistinctIds Store.empty overtaking := by
  have hfresh : Along ListStore.Fresh Store.empty overtaking := by
    refine ⟨fun g hg ↦ absurd hg List.not_mem_nil, trivial, fun g hg ↦ ?_, trivial, trivial⟩
    rw [List.mem_singleton.mp hg]
    decide
  obtain ⟨htables, -, hlists⟩ := distinct_ids_at_all_times overtaking
  exact ⟨hfresh, hlists hfresh, htables⟩

/-- A flow is restored after another one has been inserted under its id. -/
def impersonation : List StoreRequest := [
  .insertFlow Desk.draft, .archiveFlow "w" Desk.draft.id,
  .insertFlow Desk.draft, .restoreFlow "w" Desk.draft.id]

theorem distinct_ids_lost_by_lists :
    ¬ Always ListStore.DistinctIds Store.empty impersonation ∧
    ¬ Always ListStore.DistinctIds Store.empty
      (impersonation.take 3 ++ [.archiveFlow "w" Desk.draft.id]) := by
  refine ⟨fun h ↦ ?_, fun h ↦ ?_⟩
  · exact absurd h.2.2.2.2.active (by decide)
  · exact absurd h.2.2.2.2.archived (by decide)

end GuidedTours
