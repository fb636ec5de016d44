import GuidedTours.Proofs.Store.Moves

/-!
The ids of all flows that a store holds, active and archived. An insertion adds the id of its flow,
a save adds none, and a flow that moves takes its id along. So ids that are distinct stay distinct
unless one of them is inserted again.
-/

set_option autoImplicit false

namespace GuidedTours

section Rows

variable {σ : Type} [Rows σ] [ArchiveRows σ]

/-- The ids of all rows. -/
def rowIds (s : σ) : List FlowId :=
  (Rows.active s).map Rows.id ++ (ArchiveRows.archived s).map ArchiveRows.id

theorem rowIds_of_stands {active : List (Rows.Row σ)} {archived : List (ArchiveRows.Row σ)} {s : σ}
    (h : Stands active archived s) :
    rowIds s = active.map Rows.id ++ archived.map ArchiveRows.id := by
  rw [rowIds, h.active_eq, h.archived_eq]

end Rows

/-- A store whose flows are those of its rows. -/
class RowFlows (σ : Type) [Store σ] [Holdings σ] [Shelves σ] [Rows σ] [ArchiveRows σ] : Prop where
  map_id_flows {s : σ} (hs : Shelves.Sound s) : (Holdings.flows s).map Flow.id = rowIds s
  flows_putUserState (state : UserState) (s : σ) :
    Holdings.flows (Store.putUserState state s) = Holdings.flows s
  flows_recordEvents (events : List TrackedEvent) (s : σ) :
    Holdings.flows (Store.recordEvents events s) = Holdings.flows s

section Moves

variable {σ : Type} [Store σ] [Shelves σ] [Copying σ] [Rows σ] [ArchiveRows σ] [LawfulMoves σ]
variable {s : σ}

theorem rowIds_insertFlow (f : Flow) (s : σ) : (Store.insertFlow f s).2 = s ∨
    (rowIds (Store.insertFlow f s).2).Perm (f.id :: rowIds s) := by
  rcases LawfulMoves.insertFlow_cases f s with heq | ⟨r, hr, hstands⟩
  · exact .inl heq
  · refine .inr ?_
    rw [rowIds_of_stands hstands, List.map_append, List.map_singleton, (Rows.owns_iff.mp hr).1,
      List.append_assoc]
    exact List.perm_middle

theorem rowIds_saveFlow (f : Flow) (expected : Option UInt64) (s : σ) :
    rowIds (Store.saveFlow f expected s).2 = rowIds s := by
  rcases LawfulMoves.saveFlow_cases f expected s with heq | ⟨change, hchange, hstands⟩
  · rw [heq]
  · rw [rowIds_of_stands hstands, map_modifyFirst fun r hr ↦ ?_, rowIds]
    rw [(Rows.owns_iff.mp (hchange r hr)).1, (Rows.owns_iff.mp hr).1]

theorem rowIds_archiveFlow [LawfulRows σ] (hs : Shelves.Sound s) (workspace : String)
    (id : FlowId) : (rowIds (Store.archiveFlow workspace id s).2).Perm (rowIds s) := by
  rcases LawfulMoves.archiveFlow_cases hs workspace id with ⟨-, e, heq⟩ | ⟨f, s', heq, hmove⟩
  · rw [heq]
  · obtain ⟨a, ha, -, hstands⟩ := hmove.rows
    obtain ⟨r, hr⟩ := Option.isSome_iff_exists.mp (List.find?_isSome.mpr hmove.exists_row)
    rw [heq, rowIds_of_stands hstands]
    refine perm_of_moved hr ?_
    rw [(ArchiveRows.owns_iff.mp ha).1, (Rows.owns_iff.mp (List.find?_some hr)).1]

theorem rowIds_restoreFlow (hs : Shelves.Sound s) (workspace : String) (id : FlowId) :
    (rowIds (Store.restoreFlow workspace id s).2).Perm (rowIds s) := by
  rcases LawfulMoves.restoreFlow_cases hs workspace id with ⟨-, e, heq⟩ | ⟨f, s', heq, hmove⟩
  · rw [heq]
  · obtain ⟨r, hr, -, hstands⟩ := hmove.rows
    obtain ⟨a, ha, -⟩ := hmove.archived
    rw [heq, rowIds_of_stands hstands]
    refine List.perm_append_comm.trans (.trans (perm_of_moved ha ?_) List.perm_append_comm)
    rw [(ArchiveRows.owns_iff.mp (List.find?_some ha)).1, (Rows.owns_iff.mp hr).1]

theorem rowIds_putUserState (state : UserState) (s : σ) :
    rowIds (Store.putUserState state s) = rowIds s :=
  rowIds_of_stands (LawfulMoves.putUserState state s)

theorem rowIds_recordEvents (events : List TrackedEvent) (s : σ) :
    rowIds (Store.recordEvents events s) = rowIds s :=
  rowIds_of_stands (LawfulMoves.recordEvents events s)

end Moves

instance : RowFlows ListStore where
  map_id_flows _ := List.map_append
  flows_putUserState _ _ := rfl
  flows_recordEvents _ _ := rfl

instance : RowFlows TableStore where
  map_id_flows {t} hs := by
    show (TableStore.flows t).map Flow.id = t.active.map FlowRow.id ++ t.archived.map ArchivedRow.id
    rw [TableStore.flows, List.map_append, List.map_map, List.map_map]
    refine congrArg₂ _ (List.map_congr_left fun r hr ↦ ?_) (List.map_congr_left fun a ha ↦ ?_)
    · exact (hs.active r hr).id_eq.symm
    · exact (hs.archived a ha).id_eq.symm
  flows_putUserState _ _ := rfl
  flows_recordEvents _ _ := rfl

end GuidedTours
