import GuidedTours.Proofs.Lists
import GuidedTours.Store.Tables

/-!
What the operations of a store of tables can do: for each of them what it has found and read before
and the store afterwards. An operation that fails leaves the store as it was, except for the save
that makes a revision unreadable.
-/

set_option autoImplicit false

namespace GuidedTours

namespace TableStore

variable {s : TableStore} {f : Flow} {workspace : String} {id : FlowId}

theorem getFlow_eq_ok_iff :
    getFlow workspace id s = .ok f ↔
      ∃ row, s.active.find? (FlowRow.owns workspace id) = some row ∧ row.read = .ok f := by
  unfold getFlow
  cases s.active.find? (FlowRow.owns workspace id) <;> simp

theorem insertRow_cases (row : FlowRow) (s : TableStore) :
    (∃ r ∈ s.active, r.id = row.id) ∧ insertRow row s = (.error (.flowExists row.id), s) ∨
      (∀ r ∈ s.active, r.id ≠ row.id) ∧
        insertRow row s = (.ok (), { s with active := s.active ++ [row] }) := by
  unfold insertRow
  by_cases htaken : s.active.any (·.id = row.id)
  · exact .inl ⟨by simpa using htaken, if_pos htaken⟩
  · exact .inr ⟨by simpa using htaken, if_neg htaken⟩

theorem saveFlow_cases (f : Flow) (expected : Option UInt64) (s : TableStore) :
    (∃ e, saveFlow f expected s = (.error e, s)) ∨
      ∃ row, s.active.find? (FlowRow.owns f.workspace f.id) = some row ∧
        (∀ e, expected = some e → row.revision = .ofRevision e) ∧
        saveFlow f expected s = (row.revision.next.read, { s with
          active := modifyFirst (FlowRow.owns f.workspace f.id)
            (fun r ↦ { r with live := f.live, revision := row.revision.next, document := f })
            s.active }) := by
  unfold saveFlow
  cases hfind : s.active.find? (FlowRow.owns f.workspace f.id) with
  | none => exact .inl ⟨_, rfl⟩
  | some row =>
    cases hconflict : expected.filter fun e ↦ row.revision ≠ .ofRevision e with
    | some e =>
      refine .inl ?_
      simp only [hconflict]
      cases row.revision.read <;> exact ⟨_, rfl⟩
    | none =>
      refine .inr ⟨row, rfl, fun e he ↦ ?_, by simp only [hconflict]⟩
      simpa [he, Option.filter_eq_none_iff] using hconflict

theorem archiveFlow_cases (workspace : String) (id : FlowId) (s : TableStore) :
    (∃ e, archiveFlow workspace id s = (.error e, s)) ∨
      ∃ f, getFlow workspace id s = .ok f ∧ (∀ r ∈ s.archived, r.id ≠ id) ∧
        archiveFlow workspace id s = (.ok (), { s with
          active := s.active.filter fun r ↦ !r.owns workspace id
          archived := s.archived ++ [⟨id, workspace, f⟩] }) := by
  unfold archiveFlow
  cases hget : getFlow workspace id s with
  | error e => exact .inl ⟨e, rfl⟩
  | ok f =>
    by_cases htaken : s.archived.any (·.id = id)
    · exact .inl ⟨_, if_pos htaken⟩
    · exact .inr ⟨f, rfl, by simpa using htaken, if_neg htaken⟩

theorem restoreFlow_cases (workspace : String) (id : FlowId) (s : TableStore) :
    (∃ e, restoreFlow workspace id s = (.error e, s)) ∨
      ∃ row f, s.archived.find? (ArchivedRow.owns workspace id) = some row ∧ row.read = .ok f ∧
        (∀ r ∈ s.active, r.id ≠ id) ∧
        restoreFlow workspace id s = (.ok (), { s with
          active := s.active ++ [{ FlowRow.ofFlow workspace f with id }]
          archived := s.archived.filter fun r ↦ !r.owns workspace id }) := by
  unfold restoreFlow
  cases hfind : s.archived.find? (ArchivedRow.owns workspace id) with
  | none => exact .inl ⟨_, rfl⟩
  | some row =>
    cases hread : row.read with
    | error e => exact .inl ⟨e, by simp only [hread]⟩
    | ok f =>
      rcases insertRow_cases { FlowRow.ofFlow workspace f with id } s with
        ⟨-, hinsert⟩ | ⟨hnew, hinsert⟩
      · exact .inl ⟨_, by simp only [hread, hinsert]; rfl⟩
      · exact .inr ⟨row, f, rfl, hread, hnew, by simp only [hread, hinsert]⟩

end TableStore

end GuidedTours
