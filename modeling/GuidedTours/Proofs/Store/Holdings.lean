import GuidedTours.Proofs.Attempts
import GuidedTours.Proofs.Store.Listing
import GuidedTours.Proofs.Store.Tables

/-!
What a store holds: its flows, active and archived. An insertion and a save add nothing but the
flow they were given, and a flow that moves to the archive or back stays what it was. A store counts
the saves of a flow by itself and may read open data back differently, so all this is said of the
cores of flows.
-/

set_option autoImplicit false

namespace GuidedTours

variable {f g : Flow} {workspace : String} {id : FlowId}

/-- A flow without its revision and open data. -/
def Flow.core (f : Flow) : Flow :=
  { f with
    revision := 0
    opts := { f.opts with
      trigger := { f.opts.trigger with data := .empty }
      finishEffect := { f.opts.finishEffect with data := .empty } } }

theorem Flow.core_eq_of_reread? (h : f.reread? = some g) : g.core = f.core := by
  simp only [reread?, Option.bind_eq_bind, Option.bind_eq_some_iff, Option.pure_def,
    Option.some.injEq] at h
  obtain ⟨trigger, -, effect, -, rfl⟩ := h
  rfl

theorem Flow.readBack_eq_ok_iff : f.readBack = .ok g ↔ f.reread? = some g := by
  unfold readBack
  cases f.reread? <;> simp

theorem FlowRow.core_eq_of_read {r : FlowRow} (h : r.read = .ok f) :
    f.core = r.document.core := by
  unfold read at h
  obtain ⟨document, hdocument, h⟩ := bind_eq_ok_iff.mp h
  obtain ⟨revision, -, h⟩ := bind_eq_ok_iff.mp h
  rw [← Flow.core_eq_of_reread? (Flow.readBack_eq_ok_iff.mp hdocument), ← Except.ok.inj h]
  rfl

theorem ArchivedRow.core_eq_of_read {r : ArchivedRow} (h : r.read = .ok f) :
    f.core = r.document.core :=
  Flow.core_eq_of_reread? (Flow.readBack_eq_ok_iff.mp h)

/-- A store whose flows can be listed. Only the cores of what was put in and what was there before
are among the cores afterwards. -/
class Holdings (σ : Type) [Store σ] where
  flows : σ → List Flow
  flows_empty : flows (Store.empty : σ) = []
  insertFlow_cases (f : Flow) (s : σ) : (Store.insertFlow f s).2 = s ∨
    (Store.insertFlow f s).1 = .ok () ∧
      (flows (Store.insertFlow f s).2).map Flow.core ⊆ f.core :: (flows s).map Flow.core
  saveFlow_subset (f : Flow) (expected : Option UInt64) (s : σ) :
    (flows (Store.saveFlow f expected s).2).map Flow.core ⊆ f.core :: (flows s).map Flow.core
  archiveFlow_subset (workspace : String) (id : FlowId) (s : σ) :
    (flows (Store.archiveFlow workspace id s).2).map Flow.core ⊆ (flows s).map Flow.core
  restoreFlow_subset (workspace : String) (id : FlowId) (s : σ) :
    (flows (Store.restoreFlow workspace id s).2).map Flow.core ⊆ (flows s).map Flow.core
  getFlow_mem {workspace : String} {id : FlowId} {s : σ} {f : Flow}
    (h : Store.getFlow workspace id s = .ok f) : f.core ∈ (flows s).map Flow.core

/-- A list of flows each of which has a counterpart with the same core. -/
theorem cores_subset {flows others : List Flow} (h : ∀ f ∈ flows, ∃ g ∈ others, f.core = g.core) :
    flows.map Flow.core ⊆ others.map Flow.core := by
  intro core hcore
  obtain ⟨f, hf, rfl⟩ := List.mem_map.mp hcore
  obtain ⟨g, hg, hfg⟩ := h f hf
  exact List.mem_map.mpr ⟨g, hg, hfg.symm⟩

instance : Holdings ListStore where
  flows := ListStore.flows
  flows_empty := rfl
  insertFlow_cases f s := by
    rcases ListStore.insertFlow_perm f s with hsame | ⟨hok, hperm⟩
    · exact .inl hsame
    · exact .inr ⟨hok, (hperm.map Flow.core).subset⟩
  saveFlow_subset f expected s := by
    show (ListStore.saveFlow f expected s).2.flows.map Flow.core ⊆ (f :: s.flows).map Flow.core
    cases hsave : (ListStore.saveFlow f expected s).1 with
    | error e =>
      rw [ListStore.saveFlow_of_error hsave]
      exact List.map_subset _ (List.subset_cons_self _ _)
    | ok revision =>
      obtain ⟨stored, hfind, hexpected, -⟩ := ListStore.saveFlow_eq_ok_iff.mp hsave
      obtain ⟨rest, hbefore, hafter⟩ := ListStore.saveFlow_perm hfind hexpected
      have hrest : rest ⊆ s.flows := fun g hg ↦ hbefore.symm.subset (List.mem_cons_of_mem _ hg)
      refine List.Subset.trans (hafter.map Flow.core).subset ?_
      exact List.cons_subset_cons _ (List.map_subset _ hrest)
  archiveFlow_subset workspace id s :=
    ((ListStore.archiveFlow_perm workspace id s).map Flow.core).subset
  restoreFlow_subset workspace id s :=
    ((ListStore.restoreFlow_perm workspace id s).map Flow.core).subset
  getFlow_mem h := by
    have hfind := ListStore.getFlow_eq_ok_iff.mp h
    exact List.mem_map_of_mem (List.mem_append_left _ (ListStore.find?_some hfind).1)

namespace TableStore

/-- The documents of all rows. -/
def flows (s : TableStore) : List Flow :=
  s.active.map FlowRow.document ++ s.archived.map ArchivedRow.document

theorem mem_flows {s : TableStore} {f : Flow} :
    f ∈ flows s ↔ (∃ r ∈ s.active, r.document = f) ∨ ∃ r ∈ s.archived, r.document = f := by
  simp [flows]

theorem getFlow_core {s : TableStore} {workspace : String} {id : FlowId} {f : Flow}
    (h : getFlow workspace id s = .ok f) : ∃ g ∈ flows s, f.core = g.core := by
  obtain ⟨row, hfind, hread⟩ := getFlow_eq_ok_iff.mp h
  exact ⟨row.document, mem_flows.mpr (.inl ⟨row, List.mem_of_find?_eq_some hfind, rfl⟩),
    FlowRow.core_eq_of_read hread⟩

instance : Holdings TableStore where
  flows := flows
  flows_empty := rfl
  insertFlow_cases f s := by
    show (insertRow (.ofFlow f.workspace f) s).2 = s ∨
      (insertRow (.ofFlow f.workspace f) s).1 = .ok () ∧
        (flows (insertRow (.ofFlow f.workspace f) s).2).map Flow.core ⊆
          (f :: flows s).map Flow.core
    rcases insertRow_cases (.ofFlow f.workspace f) s with ⟨-, h⟩ | ⟨-, h⟩
    · exact .inl (congrArg Prod.snd h)
    · refine .inr ⟨congrArg Prod.fst h, ?_⟩
      rw [h]
      refine List.map_subset _ fun g hg ↦ ?_
      simp only [flows, FlowRow.ofFlow, List.map_append, List.map_cons, List.map_nil,
        List.mem_append, List.mem_cons] at hg ⊢
      tauto
  saveFlow_subset f expected s := by
    show (flows (saveFlow f expected s).2).map Flow.core ⊆ (f :: flows s).map Flow.core
    rcases saveFlow_cases f expected s with ⟨e, h⟩ | ⟨row, -, -, h⟩
    · rw [h]
      exact List.map_subset _ (List.subset_cons_self _ _)
    · rw [h]
      refine List.map_subset _ fun g hg ↦ ?_
      rw [List.mem_cons, mem_flows]
      rcases mem_flows.mp hg with ⟨r, hr, hrg⟩ | harchived
      · rcases mem_modifyFirst hr with hr | ⟨old, -, -, hnew⟩
        · exact .inr (.inl ⟨r, hr, hrg⟩)
        · exact .inl (hrg.symm.trans (congrArg FlowRow.document hnew))
      · exact .inr (.inr harchived)
  archiveFlow_subset workspace id s := by
    show (flows (archiveFlow workspace id s).2).map Flow.core ⊆ (flows s).map Flow.core
    rcases archiveFlow_cases workspace id s with ⟨e, h⟩ | ⟨f, hget, -, h⟩
    · rw [h]
      exact List.Subset.refl _
    · rw [h]
      refine cores_subset fun g hg ↦ ?_
      rcases mem_flows.mp hg with ⟨r, hr, hrg⟩ | ⟨r, hr, hrg⟩
      · exact ⟨g, mem_flows.mpr (.inl ⟨r, List.mem_of_mem_filter hr, hrg⟩), rfl⟩
      · rcases List.mem_append.mp hr with hr | hr
        · exact ⟨g, mem_flows.mpr (.inr ⟨r, hr, hrg⟩), rfl⟩
        · obtain rfl := List.mem_singleton.mp hr
          exact hrg ▸ getFlow_core hget
  restoreFlow_subset workspace id s := by
    show (flows (restoreFlow workspace id s).2).map Flow.core ⊆ (flows s).map Flow.core
    rcases restoreFlow_cases workspace id s with ⟨e, h⟩ | ⟨row, f, hfind, hread, -, h⟩
    · rw [h]
      exact List.Subset.refl _
    · rw [h]
      refine cores_subset fun g hg ↦ ?_
      rcases mem_flows.mp hg with ⟨r, hr, hrg⟩ | ⟨r, hr, hrg⟩
      · rcases List.mem_append.mp hr with hr | hr
        · exact ⟨g, mem_flows.mpr (.inl ⟨r, hr, hrg⟩), rfl⟩
        · obtain rfl := List.mem_singleton.mp hr
          have hrow : row.document ∈ flows s :=
            mem_flows.mpr (.inr ⟨row, List.mem_of_find?_eq_some hfind, rfl⟩)
          exact ⟨row.document, hrow, hrg ▸ ArchivedRow.core_eq_of_read hread⟩
      · exact ⟨g, mem_flows.mpr (.inr ⟨r, List.mem_of_mem_filter hr, hrg⟩), rfl⟩
  getFlow_mem h := by
    obtain ⟨g, hg, hfg⟩ := getFlow_core h
    exact List.mem_map.mpr ⟨g, hg, hfg.symm⟩

end TableStore

end GuidedTours
