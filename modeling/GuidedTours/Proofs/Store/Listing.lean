import GuidedTours.Proofs.Lists
import GuidedTours.Store.Listing

/-!
What the operations of a store of lists can do: for each of them all answers, what has been found
in the store before, and the store afterwards. Taken together, the active and the archived flows
are only rearranged when a flow moves between them; an insertion adds a flow, and a save puts a
flow in the place of one with the same id. A flow that is the only one with its id can therefore be
followed from operation to operation.
-/

set_option autoImplicit false

namespace GuidedTours

namespace ListStore

variable {s s' : ListStore} {f g stored : Flow} {fs : List Flow} {workspace : String}
variable {id : FlowId} {expected : Option UInt64} {revision : UInt64}

theorem owns_iff : owns workspace id f ↔ f.id = id ∧ f.workspace = workspace := by
  simp [owns]

theorem find?_some (h : find? fs workspace id = some f) :
    f ∈ fs ∧ f.id = id ∧ f.workspace = workspace :=
  ⟨List.mem_of_find?_eq_some h, owns_iff.mp (List.find?_some h)⟩

theorem getFlow_eq_ok_iff :
    getFlow workspace id s = .ok f ↔ find? s.active workspace id = some f := by
  unfold getFlow
  cases find? s.active workspace id <;> simp

theorem insertFlow_cases (f : Flow) (s : ListStore) :
    (∃ g ∈ s.active, g.id = f.id) ∧ insertFlow f s = (.error (.flowExists f.id), s) ∨
      (∀ g ∈ s.active, g.id ≠ f.id) ∧
        insertFlow f s = (.ok (), { s with active := s.active ++ [f] }) := by
  unfold insertFlow
  by_cases htaken : s.active.any (·.id = f.id)
  · exact .inl ⟨by simpa using htaken, if_pos htaken⟩
  · exact .inr ⟨by simpa using htaken, if_neg htaken⟩

theorem saveFlow_cases (f : Flow) (expected : Option UInt64) (s : ListStore) :
    find? s.active f.workspace f.id = none ∧
        saveFlow f expected s = (.error (.flowNotFound f.id), s) ∨
      ∃ stored, find? s.active f.workspace f.id = some stored ∧
        ((∃ e, expected = some e ∧ e ≠ stored.revision ∧
            saveFlow f expected s = (.error (.conflict f.id e stored.revision), s)) ∨
          (∀ e, expected = some e → e = stored.revision) ∧
            saveFlow f expected s = (.ok (stored.revision + 1), { s with
              active := modifyFirst (owns f.workspace f.id)
                (fun _ ↦ { f with revision := stored.revision + 1 }) s.active })) := by
  unfold saveFlow
  cases hfind : find? s.active f.workspace f.id with
  | none => exact .inl ⟨rfl, rfl⟩
  | some stored =>
    refine .inr ⟨stored, rfl, ?_⟩
    cases hconflict : expected.filter (· ≠ stored.revision) with
    | some e =>
      obtain ⟨hexpected, hne⟩ := Option.filter_eq_some_iff.mp hconflict
      exact .inl ⟨e, hexpected, by simpa using hne, by simp only [hconflict]⟩
    | none =>
      refine .inr ⟨fun e he ↦ ?_, by simp only [hconflict]⟩
      simpa [he, Option.filter_eq_none_iff] using hconflict

theorem archiveFlow_cases (workspace : String) (id : FlowId) (s : ListStore) :
    find? s.active workspace id = none ∧
        archiveFlow workspace id s = (.error (.flowNotFound id), s) ∨
      ∃ f, find? s.active workspace id = some f ∧
        archiveFlow workspace id s = (.ok (), { s with
          active := s.active.eraseP (owns workspace id), archived := s.archived ++ [f] }) := by
  unfold archiveFlow
  cases hfind : find? s.active workspace id with
  | none => exact .inl ⟨rfl, rfl⟩
  | some f => exact .inr ⟨f, rfl, rfl⟩

theorem restoreFlow_cases (workspace : String) (id : FlowId) (s : ListStore) :
    find? s.archived workspace id = none ∧
        restoreFlow workspace id s = (.error (.flowNotFound id), s) ∨
      ∃ f, find? s.archived workspace id = some f ∧
        restoreFlow workspace id s = (.ok (), { s with
          archived := s.archived.eraseP (owns workspace id), active := s.active ++ [f] }) := by
  unfold restoreFlow
  cases hfind : find? s.archived workspace id with
  | none => exact .inl ⟨rfl, rfl⟩
  | some f => exact .inr ⟨f, rfl, rfl⟩

theorem saveFlow_eq_ok_iff : (saveFlow f expected s).1 = .ok revision ↔
    ∃ stored, find? s.active f.workspace f.id = some stored ∧
      (∀ e, expected = some e → e = stored.revision) ∧ revision = stored.revision + 1 := by
  rcases saveFlow_cases f expected s with
    ⟨hfind, heq⟩ | ⟨stored, hfind, ⟨e, he, hne, heq⟩ | ⟨hexpected, heq⟩⟩
  · simp [heq, hfind]
  · rw [heq]
    simp [hfind, he, hne]
  · simp only [heq, hfind, Except.ok.injEq, Option.some.injEq]
    constructor
    · intro h
      exact ⟨stored, rfl, hexpected, h.symm⟩
    · intro h
      obtain ⟨_, rfl, -, h⟩ := h
      exact h.symm

theorem saveFlow_of_error {e : StoreError} (h : (saveFlow f expected s).1 = .error e) :
    (saveFlow f expected s).2 = s := by
  rcases saveFlow_cases f expected s with ⟨-, heq⟩ | ⟨stored, -, ⟨e, -, -, heq⟩ | ⟨-, heq⟩⟩
  · rw [heq]
  · rw [heq]
  · simp [heq] at h

/-- The contents of the store. -/
def flows (s : ListStore) : List Flow := s.active ++ s.archived

theorem insertFlow_perm (f : Flow) (s : ListStore) :
    (insertFlow f s).2 = s ∨
      (insertFlow f s).1 = .ok () ∧ (insertFlow f s).2.flows.Perm (f :: s.flows) := by
  rcases insertFlow_cases f s with ⟨-, heq⟩ | ⟨-, heq⟩
  · exact .inl (congrArg Prod.snd heq)
  · rw [heq]
    refine .inr ⟨rfl, ?_⟩
    show (s.active ++ [f] ++ s.archived).Perm (f :: (s.active ++ s.archived))
    rw [List.append_assoc]
    exact List.perm_middle

/-- An active flow leaves its place, and a flow joins the archive. -/
theorem archived_perm (hfind : find? s.active workspace id = some f) (g : Flow) :
    ∃ rest, s.flows.Perm (f :: rest) ∧
      (flows { s with active := s.active.eraseP (owns workspace id)
                      archived := s.archived ++ [g] }).Perm (g :: rest) := by
  refine ⟨s.active.eraseP (owns workspace id) ++ s.archived,
    (perm_cons_eraseP hfind).append_right s.archived, ?_⟩
  show (s.active.eraseP (owns workspace id) ++ (s.archived ++ [g])).Perm
    (g :: (s.active.eraseP (owns workspace id) ++ s.archived))
  rw [← List.append_assoc]
  exact List.perm_append_singleton _ _

/-- An archived flow leaves its place, and a flow joins the active ones. -/
theorem restored_perm (hfind : find? s.archived workspace id = some f) (g : Flow) :
    ∃ rest, s.flows.Perm (f :: rest) ∧
      (flows { s with archived := s.archived.eraseP (owns workspace id)
                      active := s.active ++ [g] }).Perm (g :: rest) := by
  refine ⟨s.active ++ s.archived.eraseP (owns workspace id), ?_, ?_⟩
  · have harchived : s.archived.Perm (f :: s.archived.eraseP (owns workspace id)) :=
      perm_cons_eraseP hfind
    exact (harchived.append_left s.active).trans List.perm_middle
  · show (s.active ++ [g] ++ s.archived.eraseP (owns workspace id)).Perm
      (g :: (s.active ++ s.archived.eraseP (owns workspace id)))
    rw [List.append_assoc]
    exact List.perm_middle

theorem archiveFlow_perm (workspace : String) (id : FlowId) (s : ListStore) :
    (archiveFlow workspace id s).2.flows.Perm s.flows := by
  rcases archiveFlow_cases workspace id s with ⟨-, heq⟩ | ⟨f, hfind, heq⟩
  · rw [heq]
  · obtain ⟨rest, hbefore, hafter⟩ := archived_perm hfind f
    rw [heq]
    exact hafter.trans hbefore.symm

theorem restoreFlow_perm (workspace : String) (id : FlowId) (s : ListStore) :
    (restoreFlow workspace id s).2.flows.Perm s.flows := by
  rcases restoreFlow_cases workspace id s with ⟨-, heq⟩ | ⟨f, hfind, heq⟩
  · rw [heq]
  · obtain ⟨rest, hbefore, hafter⟩ := restored_perm hfind f
    rw [heq]
    exact hafter.trans hbefore.symm

/-- A successful save puts the given flow in the place of the stored one. -/
theorem saveFlow_perm (hfind : find? s.active f.workspace f.id = some stored)
    (hexpected : ∀ e, expected = some e → e = stored.revision) :
    ∃ rest, s.flows.Perm (stored :: rest) ∧
      (saveFlow f expected s).2.flows.Perm
        ({ f with revision := stored.revision + 1 } :: rest) := by
  refine ⟨s.active.eraseP (owns f.workspace f.id) ++ s.archived,
    (perm_cons_eraseP hfind).append_right s.archived, ?_⟩
  rcases saveFlow_cases f expected s with ⟨hnone, -⟩ | ⟨found, hfound, ⟨e, he, hne, -⟩ | ⟨-, heq⟩⟩
  · simp [hfind] at hnone
  · rw [hfind, Option.some_inj] at hfound
    exact absurd (hfound ▸ hexpected e he) hne
  · rw [hfind, Option.some_inj] at hfound
    rw [heq, ← hfound]
    exact (modifyFirst_perm hfind).append_right s.archived

/-- The given flow is the only one with the id. -/
def Holds (s : ListStore) (id : FlowId) (f : Flow) : Prop :=
  s.flows.filter (·.id = id) = [f]

theorem holds_of_nodup (hids : (s.flows.map Flow.id).Nodup) (hf : f ∈ s.flows) :
    s.Holds f.id f := by
  have hmem : f ∈ s.flows.filter (·.id = f.id) := List.mem_filter.mpr ⟨hf, by simp⟩
  refine List.perm_singleton.mp ((List.perm_ext_iff_of_nodup ?_ (List.nodup_singleton f)).mpr ?_)
  · exact hids.of_map.filter _
  · intro g
    rw [List.mem_singleton, List.mem_filter, decide_eq_true_iff]
    constructor
    · intro hg
      exact List.inj_on_of_nodup_map hids hg.1 hf hg.2
    · intro hg
      rw [hg]
      exact ⟨hf, rfl⟩

namespace Holds

theorem mem_iff (h : s.Holds id f) : g ∈ s.flows ∧ g.id = id ↔ g = f := by
  have hmem : g ∈ s.flows.filter (·.id = id) ↔ g = f := by
    rw [h, List.mem_singleton]
  simpa using hmem

theorem of_perm (h : s.Holds id f) (hperm : s'.flows.Perm s.flows) : s'.Holds id f := by
  have hfilter := hperm.filter (·.id = id)
  rw [show s.flows.filter (·.id = id) = [f] from h] at hfilter
  exact List.perm_singleton.mp hfilter

theorem of_perm_cons (h : s.Holds id f) (hne : g.id ≠ id)
    (hperm : s'.flows.Perm (g :: s.flows)) : s'.Holds id f := by
  have hfilter := hperm.filter (·.id = id)
  rw [List.filter_cons_of_neg (by simpa using hne),
    show s.flows.filter (·.id = id) = [f] from h] at hfilter
  exact List.perm_singleton.mp hfilter

/-- Where one flow takes the place of another, it does so for its own id only. -/
theorem of_replaced {rest : List Flow} (h : s.Holds id f) (hsame : g.id = stored.id)
    (hbefore : s.flows.Perm (stored :: rest)) (hafter : s'.flows.Perm (g :: rest)) :
    if stored.id = id then stored = f ∧ s'.Holds id g else s'.Holds id f := by
  have hrest := hbefore.filter (·.id = id)
  have hnext := hafter.filter (·.id = id)
  rw [show s.flows.filter (·.id = id) = [f] from h] at hrest
  by_cases hid : stored.id = id
  · rw [if_pos hid]
    rw [List.filter_cons_of_pos (by simpa using hid)] at hrest
    rw [List.filter_cons_of_pos (by simpa [hsame] using hid)] at hnext
    have hnone : rest.filter (·.id = id) = [] := by simpa using hrest.length_eq
    rw [hnone] at hrest hnext
    exact ⟨List.singleton_inj.mp (List.perm_singleton.mp hrest.symm), List.perm_singleton.mp hnext⟩
  · rw [if_neg hid]
    rw [List.filter_cons_of_neg (by simpa using hid)] at hrest
    rw [List.filter_cons_of_neg (by simpa [hsame] using hid)] at hnext
    exact List.perm_singleton.mp (hnext.trans hrest.symm)

theorem find?_eq (h : s.Holds id f) (hfind : find? s.active workspace id = some stored) :
    stored = f := by
  obtain ⟨hmem, hid, -⟩ := find?_some hfind
  exact h.mem_iff.mp ⟨List.mem_append_left _ hmem, hid⟩

end Holds

end ListStore

end GuidedTours
