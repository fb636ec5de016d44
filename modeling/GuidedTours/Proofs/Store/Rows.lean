import GuidedTours.Proofs.Store.Holdings
import GuidedTours.Proofs.Store.Runs

/-!
The rows of a store of tables. The columns of a row repeat what its document says, and each of the
two tables has an id at most once. Every operation keeps this up, since a row that moves is written
anew from what has been read of it, and reading changes none of the repeated fields.
-/

set_option autoImplicit false

namespace GuidedTours

variable {f : Flow} {workspace : String} {id : FlowId}

theorem Flow.repeated_of_core {g : Flow} (h : f.core = g.core) :
    f.id = g.id ∧ f.workspace = g.workspace ∧ f.live = g.live :=
  ⟨show f.core.id = g.core.id by rw [h], show f.core.workspace = g.core.workspace by rw [h],
    show f.core.live = g.core.live by rw [h]⟩

namespace FlowRow

variable {r : FlowRow}

/-- The columns repeat what the document says. -/
structure Faithful (r : FlowRow) : Prop where
  id_eq : r.id = r.document.id
  workspace_eq : r.workspace = r.document.workspace
  live_eq : r.live = r.document.live

theorem owns_iff : owns workspace id r ↔ r.id = id ∧ r.workspace = workspace := by
  simp [owns]

theorem Faithful.of_read (hr : r.Faithful) (h : r.read = .ok f) :
    f.id = r.id ∧ f.workspace = r.workspace ∧ f.live = r.live := by
  obtain ⟨hid, hworkspace, hlive⟩ := Flow.repeated_of_core (core_eq_of_read h)
  exact ⟨hid.trans hr.id_eq.symm, hworkspace.trans hr.workspace_eq.symm,
    hlive.trans hr.live_eq.symm⟩

theorem faithful_ofFlow (f : Flow) : (ofFlow f.workspace f).Faithful := ⟨rfl, rfl, rfl⟩

end FlowRow

namespace ArchivedRow

variable {r : ArchivedRow}

structure Faithful (r : ArchivedRow) : Prop where
  id_eq : r.id = r.document.id
  workspace_eq : r.workspace = r.document.workspace

theorem owns_iff : owns workspace id r ↔ r.id = id ∧ r.workspace = workspace := by
  simp [owns]

theorem Faithful.of_read (hr : r.Faithful) (h : r.read = .ok f) :
    f.id = r.id ∧ f.workspace = r.workspace := by
  obtain ⟨hid, hworkspace, -⟩ := Flow.repeated_of_core (core_eq_of_read h)
  exact ⟨hid.trans hr.id_eq.symm, hworkspace.trans hr.workspace_eq.symm⟩

end ArchivedRow

namespace TableStore

/-- What the tables promise of their rows. -/
structure Sound (s : TableStore) : Prop where
  active : ∀ r ∈ s.active, r.Faithful
  archived : ∀ r ∈ s.archived, r.Faithful
  activeKeys : (s.active.map FlowRow.id).Nodup
  archivedKeys : (s.archived.map ArchivedRow.id).Nodup

namespace Sound

variable {s : TableStore}

theorem empty : Sound (Store.empty : TableStore) :=
  ⟨fun _ h ↦ absurd h List.not_mem_nil, fun _ h ↦ absurd h List.not_mem_nil,
    List.nodup_nil, List.nodup_nil⟩

theorem appendActive (h : s.Sound) {row : FlowRow} (hrow : row.Faithful)
    (hnew : ∀ r ∈ s.active, r.id ≠ row.id) : Sound { s with active := s.active ++ [row] } := by
  refine ⟨fun r hr ↦ ?_, h.archived, nodup_map_append_singleton.mpr ⟨h.activeKeys, hnew⟩,
    h.archivedKeys⟩
  rcases List.mem_append.mp hr with hr | hr
  · exact h.active r hr
  · exact List.mem_singleton.mp hr ▸ hrow

theorem insertFlow (h : s.Sound) (f : Flow) :
    (insertRow (.ofFlow f.workspace f) s).2.Sound := by
  rcases insertRow_cases (.ofFlow f.workspace f) s with ⟨-, heq⟩ | ⟨hnew, heq⟩
  · rw [heq]
    exact h
  · rw [heq]
    exact h.appendActive (FlowRow.faithful_ofFlow f) hnew

theorem saveFlow (h : s.Sound) (f : Flow) (expected : Option UInt64) :
    (saveFlow f expected s).2.Sound := by
  rcases saveFlow_cases f expected s with ⟨e, heq⟩ | ⟨row, -, -, heq⟩
  · rw [heq]
    exact h
  · rw [heq]
    refine ⟨fun r hr ↦ ?_, h.archived, ?_, h.archivedKeys⟩
    · rcases mem_modifyFirst hr with hr | ⟨old, -, howns, rfl⟩
      · exact h.active r hr
      · obtain ⟨hid, hworkspace⟩ := FlowRow.owns_iff.mp howns
        exact ⟨hid, hworkspace, rfl⟩
    · have hkeys : (modifyFirst (FlowRow.owns f.workspace f.id)
          (fun r ↦ { r with live := f.live, revision := row.revision.next, document := f })
          s.active).map FlowRow.id = s.active.map FlowRow.id := map_modifyFirst fun _ _ ↦ rfl
      exact hkeys.symm ▸ h.activeKeys

theorem archiveFlow (h : s.Sound) (workspace : String) (id : FlowId) :
    (archiveFlow workspace id s).2.Sound := by
  rcases archiveFlow_cases workspace id s with ⟨e, heq⟩ | ⟨f, hget, hnew, heq⟩
  · rw [heq]
    exact h
  · obtain ⟨row, hfind, hread⟩ := getFlow_eq_ok_iff.mp hget
    obtain ⟨hid, hworkspace⟩ := FlowRow.owns_iff.mp (List.find?_some hfind)
    obtain ⟨hfid, hfworkspace, -⟩ :=
      (h.active row (List.mem_of_find?_eq_some hfind)).of_read hread
    rw [heq]
    refine ⟨fun r hr ↦ h.active r (List.mem_of_mem_filter hr), fun r hr ↦ ?_,
      h.activeKeys.sublist (List.filter_sublist.map _),
      nodup_map_append_singleton.mpr ⟨h.archivedKeys, hnew⟩⟩
    rcases List.mem_append.mp hr with hr | hr
    · exact h.archived r hr
    · rw [List.mem_singleton.mp hr]
      exact ⟨(hfid.trans hid).symm, (hfworkspace.trans hworkspace).symm⟩

theorem restoreFlow (h : s.Sound) (workspace : String) (id : FlowId) :
    (restoreFlow workspace id s).2.Sound := by
  rcases restoreFlow_cases workspace id s with ⟨e, heq⟩ | ⟨row, f, hfind, hread, hnew, heq⟩
  · rw [heq]
    exact h
  · obtain ⟨hid, hworkspace⟩ := ArchivedRow.owns_iff.mp (List.find?_some hfind)
    obtain ⟨hfid, hfworkspace⟩ :=
      (h.archived row (List.mem_of_find?_eq_some hfind)).of_read hread
    have hrow : FlowRow.Faithful { FlowRow.ofFlow workspace f with id } :=
      ⟨(hfid.trans hid).symm, (hfworkspace.trans hworkspace).symm, rfl⟩
    rw [heq]
    have hactive := h.appendActive hrow hnew
    exact ⟨hactive.active, fun r hr ↦ h.archived r (List.mem_of_mem_filter hr),
      hactive.activeKeys, h.archivedKeys.sublist (List.filter_sublist.map _)⟩

theorem kept : Kept Sound where
  insertFlow f _ h := h.insertFlow f
  saveFlow f expected _ h := h.saveFlow f expected
  archiveFlow workspace id _ h := h.archiveFlow workspace id
  restoreFlow workspace id _ h := h.restoreFlow workspace id
  putUserState _ _ h := ⟨h.active, h.archived, h.activeKeys, h.archivedKeys⟩
  recordEvents _ _ h := ⟨h.active, h.archived, h.activeKeys, h.archivedKeys⟩

end Sound

end TableStore

end GuidedTours
