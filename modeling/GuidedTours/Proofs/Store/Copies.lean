import GuidedTours.Proofs.Store.Contents

/-!
What a store keeps of its flows and what it shows of them. An insertion and a save keep the flow
they are given, and a read shows a copy of it. A list copies exactly; a row of a table may copy the
open data of a flow differently, or not at all. A flow that moves to the archive or back is replaced
by its copy in a store of tables, and so the next read shows a copy of a copy.
-/

set_option autoImplicit false

namespace GuidedTours

/-- A store whose flows can be looked at as two lists, as they are kept. -/
class Copying (σ : Type) where
  contents : σ → ListStore
  /-- What a read shows of a flow that is kept. -/
  copy? : Flow → Option Flow
  /-- The revision at which no flow can be saved any more. -/
  capacity : Nat
  Sound : σ → Prop

namespace Copying

variable {σ : Type} [Copying σ] {s s' : σ} {f g : Flow} {id : FlowId}

/-- The flows as they are kept. -/
def flows (s : σ) : List Flow := (contents s).flows

/-- Every flow can be saved. -/
structure Ready (s : σ) : Prop where
  sound : Sound s
  room : ∀ f ∈ flows s, f.revision.toNat < capacity σ

/-- An operation that fails and changes nothing, or that replaces the flow with the id by its
copy. -/
inductive Relocates (id : FlowId) (s : σ) (result : Except StoreError Unit × σ) : Prop
  | fails (e : StoreError) (heq : result = (.error e, s))
  | succeeds (s' : σ) (f g : Flow) (rest : List Flow) (heq : result = (.ok (), s'))
    (hid : f.id = id) (hcopy : copy? σ f = some g) (hbefore : (flows s).Perm (f :: rest))
    (hafter : (flows s').Perm (g :: rest))

variable (σ)

/-- What comes of a flow that is copied, and its copy too, and so on for a number of times. -/
def copies? : Nat → Flow → Option Flow
  | 0, f => some f
  | n + 1, f => (copy? σ f).bind (copies? n)

end Copying

open Copying in
/-- A store that does on its flows what a store of lists does on them, but for the copies. -/
class LawfulCopying (σ : Type) [Store σ] [Copying σ] : Prop where
  capacity_le : capacity σ ≤ UInt64.size
  copy_keeps {f g : Flow} (h : copy? σ f = some g) : g.core = f.core ∧ g.revision = f.revision
  contents_empty : contents (Store.empty : σ) = Store.empty
  sound_empty : Sound (Store.empty : σ)
  insertFlow_eq {s : σ} (hs : Sound s) (f : Flow) :
    (Store.insertFlow f s).1 = (ListStore.insertFlow f (contents s)).1 ∧
      contents (Store.insertFlow f s).2 = (ListStore.insertFlow f (contents s)).2 ∧
      Sound (Store.insertFlow f s).2
  saveFlow_eq {s : σ} (hs : Ready s) (f : Flow) (expected : Option UInt64) :
    (Store.saveFlow f expected s).1 = (ListStore.saveFlow f expected (contents s)).1 ∧
      contents (Store.saveFlow f expected s).2 =
        (ListStore.saveFlow f expected (contents s)).2 ∧
      Sound (Store.saveFlow f expected s).2
  archiveFlow_relocates {s : σ} (hs : Sound s) (workspace : String) (id : FlowId) :
    Sound (Store.archiveFlow workspace id s).2 ∧
      Relocates id s (Store.archiveFlow workspace id s)
  restoreFlow_relocates {s : σ} (hs : Sound s) (workspace : String) (id : FlowId) :
    Sound (Store.restoreFlow workspace id s).2 ∧
      Relocates id s (Store.restoreFlow workspace id s)
  getFlow_copies {s : σ} {workspace : String} {id : FlowId} {f : Flow}
    (h : Store.getFlow workspace id s = .ok f) : ∃ g ∈ flows s, copy? σ g = some f
  listFlows_copies {s : σ} {workspace : String} {fs : List Flow}
    (h : Store.listFlows workspace s = .ok fs) : ∀ f ∈ fs, ∃ g ∈ flows s, copy? σ g = some f
  listArchivedFlows_copies {s : σ} {workspace : String} {fs : List Flow}
    (h : Store.listArchivedFlows workspace s = .ok fs) :
    ∀ f ∈ fs, ∃ g ∈ flows s, copy? σ g = some f

namespace Copying

variable {σ : Type} [Copying σ] {f g f' g' : Flow} {n : Nat}

theorem copies?_one (f : Flow) : copies? σ 1 f = copy? σ f :=
  Option.bind_fun_some (copy? σ f)

theorem copies?_add (m n : Nat) (f : Flow) :
    copies? σ (m + n) f = (copies? σ m f).bind (copies? σ n) := by
  induction m generalizing f with
  | zero => rw [Nat.zero_add, copies?, Option.bind_some]
  | succ m ih =>
    rw [Nat.succ_add, copies?, copies?, Option.bind_assoc]
    exact Option.bind_congr fun g _ ↦ ih g

theorem copies?_of_self (hself : copy? σ f = some f) (n : Nat) : copies? σ n f = some f := by
  induction n with
  | zero => rfl
  | succ n ih => rw [copies?, hself, Option.bind_some, ih]

/-- The copies of a copy are copies of the copies. -/
theorem copies?_of_copy (hfg : copies? σ n f = some g) (hf : copy? σ f = some f')
    (hg : copy? σ g = some g') : copies? σ n f' = some g' := by
  have hlast : copies? σ (n + 1) f = some g' := by
    rw [copies?_add, hfg, Option.bind_some, copies?_one, hg]
  rwa [copies?, hf, Option.bind_some] at hlast

variable [Store σ] [LawfulCopying σ]

theorem copy_id (hfg : copy? σ f = some g) : g.id = f.id :=
  (Flow.repeated_of_core (LawfulCopying.copy_keeps hfg).1).1

theorem copies?_keeps (hfg : copies? σ n f = some g) :
    g.core = f.core ∧ g.revision = f.revision := by
  induction n generalizing f with
  | zero => exact Option.some.inj hfg ▸ ⟨rfl, rfl⟩
  | succ n ih =>
    obtain ⟨next, hcopy, hrest⟩ := Option.bind_eq_some_iff.mp hfg
    obtain ⟨hcore, hrevision⟩ := LawfulCopying.copy_keeps hcopy
    exact ⟨(ih hrest).1.trans hcore, (ih hrest).2.trans hrevision⟩

end Copying

namespace ListStore

instance : Copying ListStore where
  contents := id
  copy? := some
  capacity := UInt64.size
  Sound _ := True

variable {f g : Flow}

theorem ready (s : ListStore) : Copying.Ready s := ⟨trivial, fun f _ ↦ f.revision.toNat_lt⟩

theorem eq_of_copies? {n : Nat} (h : Copying.copies? ListStore n f = some g) : g = f :=
  Option.some.inj (h.symm.trans (Copying.copies?_of_self rfl n))

instance : LawfulCopying ListStore where
  capacity_le := Nat.le_refl _
  copy_keeps h := Option.some.inj h ▸ ⟨rfl, rfl⟩
  contents_empty := rfl
  sound_empty := trivial
  insertFlow_eq _ _ := ⟨rfl, rfl, trivial⟩
  saveFlow_eq _ _ _ := ⟨rfl, rfl, trivial⟩
  archiveFlow_relocates {s} _ workspace id := by
    refine ⟨trivial, ?_⟩
    rcases archiveFlow_cases workspace id s with ⟨-, heq⟩ | ⟨f, hfind, heq⟩
    · exact .fails _ heq
    · obtain ⟨rest, hbefore, hafter⟩ := archived_perm hfind f
      exact .succeeds _ f f rest heq (find?_some hfind).2.1 rfl hbefore hafter
  restoreFlow_relocates {s} _ workspace id := by
    refine ⟨trivial, ?_⟩
    rcases restoreFlow_cases workspace id s with ⟨-, heq⟩ | ⟨f, hfind, heq⟩
    · exact .fails _ heq
    · obtain ⟨rest, hbefore, hafter⟩ := restored_perm hfind f
      exact .succeeds _ f f rest heq (find?_some hfind).2.1 rfl hbefore hafter
  getFlow_copies {s _ _ f} h :=
    ⟨f, List.mem_append_left _ (find?_some (getFlow_eq_ok_iff.mp h)).1, rfl⟩
  listFlows_copies {s _ fs} h f hf := by
    rw [← Except.ok.inj h] at hf
    exact ⟨f, List.mem_append_left _ (List.mem_of_mem_filter hf), rfl⟩
  listArchivedFlows_copies {s _ fs} h f hf := by
    rw [← Except.ok.inj h] at hf
    exact ⟨f, List.mem_append_right _ (List.mem_of_mem_filter hf), rfl⟩

end ListStore

theorem FlowRow.reread?_of_read {r : FlowRow} {f : Flow} (h : r.read = .ok f) :
    r.flow.reread? = some f := by
  unfold read at h
  obtain ⟨document, hdocument, h⟩ := bind_eq_ok_iff.mp h
  obtain ⟨revision, hrevision, h⟩ := bind_eq_ok_iff.mp h
  have hreread : r.document.reread? = some document := Flow.readBack_eq_ok_iff.mp hdocument
  have hcolumn : r.revision.revision = revision := RevisionColumn.revision_of_read hrevision
  rw [flow, Flow.reread?_revision, hreread, hcolumn]
  exact congrArg some (Except.ok.inj h)

namespace TableStore

variable {t : TableStore} {f : Flow}

theorem copy_active {r : FlowRow} (hr : r ∈ t.active) (h : r.read = .ok f) :
    ∃ g ∈ t.contents.flows, g.reread? = some f :=
  ⟨r.flow, List.mem_append_left _ (List.mem_map_of_mem hr), FlowRow.reread?_of_read h⟩

theorem copy_archived {r : ArchivedRow} (hr : r ∈ t.archived) (h : r.read = .ok f) :
    ∃ g ∈ t.contents.flows, g.reread? = some f :=
  ⟨r.document, List.mem_append_right _ (List.mem_map_of_mem hr), Flow.readBack_eq_ok_iff.mp h⟩

instance : Copying TableStore where
  contents := contents
  copy? := Flow.reread?
  capacity := revisionLimit.toNat
  Sound t := t.Sound ∧ t.Counted

theorem Sound.archiveFlow_relocates (h : t.Sound) (workspace : String) (id : FlowId) :
    Copying.Relocates id t (TableStore.archiveFlow workspace id t) := by
  rcases archiveFlow_cases workspace id t with ⟨e, heq⟩ | ⟨f, hget, -, heq⟩
  · exact .fails e heq
  · obtain ⟨row, hrow, hread⟩ := getFlow_eq_ok_iff.mp hget
    have hfind : ListStore.find? t.contents.active workspace id = some row.flow := by
      rw [h.find?_active, hrow]
      rfl
    obtain ⟨rest, hbefore, hafter⟩ := ListStore.archived_perm hfind f
    rw [← h.contents_archived] at hafter
    exact .succeeds _ row.flow f rest heq (ListStore.find?_some hfind).2.1
      (FlowRow.reread?_of_read hread) hbefore hafter

theorem Sound.restoreFlow_relocates (h : t.Sound) (workspace : String) (id : FlowId) :
    Copying.Relocates id t (TableStore.restoreFlow workspace id t) := by
  rcases restoreFlow_cases workspace id t with ⟨e, heq⟩ | ⟨row, f, hrow, hread, -, heq⟩
  · exact .fails e heq
  · have hfind : ListStore.find? t.contents.archived workspace id = some row.document := by
      rw [h.find?_archived, hrow]
      rfl
    obtain ⟨rest, hbefore, hafter⟩ := ListStore.restored_perm hfind f
    rw [← h.contents_restored] at hafter
    exact .succeeds _ row.document f rest heq (ListStore.find?_some hfind).2.1
      (Flow.readBack_eq_ok_iff.mp hread) hbefore hafter

namespace Counted

theorem appendActive (h : t.Counted) {row : FlowRow}
    (hrow : row.revision = .ofRevision row.flow.revision) :
    Counted { t with active := t.active ++ [row] } := by
  intro r hr
  rcases List.mem_append.mp hr with hr | hr
  · exact h r hr
  · exact List.mem_singleton.mp hr ▸ hrow

theorem insertFlow (h : t.Counted) (f : Flow) :
    (insertRow (.ofFlow f.workspace f) t).2.Counted := by
  rcases insertRow_cases (.ofFlow f.workspace f) t with ⟨-, heq⟩ | ⟨-, heq⟩
  · rw [heq]
    exact h
  · rw [heq]
    refine h.appendActive ?_
    rw [FlowRow.flow_ofFlow]
    rfl

theorem saveFlow (h : t.Counted) (f : Flow) (expected : Option UInt64)
    (hroom : ∀ r ∈ t.active, r.flow.revision ≠ revisionLimit) :
    (saveFlow f expected t).2.Counted := by
  rcases saveFlow_cases f expected t with ⟨e, heq⟩ | ⟨row, hfind, -, heq⟩
  · rw [heq]
    exact h
  · have hmem := List.mem_of_find?_eq_some hfind
    rw [heq, h.next_revision hmem (hroom row hmem)]
    intro r hr
    rcases mem_modifyFirst hr with hr | ⟨old, -, -, rfl⟩
    · exact h r hr
    · exact congrArg RevisionColumn.ofRevision (RevisionColumn.revision_ofRevision _).symm

theorem archiveFlow (h : t.Counted) (workspace : String) (id : FlowId) :
    (archiveFlow workspace id t).2.Counted := by
  rcases archiveFlow_cases workspace id t with ⟨e, heq⟩ | ⟨f, -, -, heq⟩
  · rw [heq]
    exact h
  · rw [heq]
    exact fun r hr ↦ h r (List.mem_of_mem_filter hr)

theorem restoreFlow (h : t.Counted) (workspace : String) (id : FlowId) :
    (restoreFlow workspace id t).2.Counted := by
  rcases restoreFlow_cases workspace id t with ⟨e, heq⟩ | ⟨row, f, -, -, -, heq⟩
  · rw [heq]
    exact h
  · rw [heq]
    have hactive : Counted { t with
        active := t.active ++ [{ FlowRow.ofFlow workspace f with id }] } :=
      h.appendActive (congrArg RevisionColumn.ofRevision
        (RevisionColumn.revision_ofRevision f.revision).symm)
    exact hactive

end Counted

instance : LawfulCopying TableStore where
  capacity_le := by decide
  copy_keeps h := ⟨Flow.core_eq_of_reread? h, Flow.revision_eq_of_reread? h⟩
  contents_empty := rfl
  sound_empty := ⟨.empty, fun _ h ↦ absurd h List.not_mem_nil⟩
  insertFlow_eq hs f :=
    have heq := Prod.ext_iff.mp (hs.1.insertFlow_eq f)
    ⟨heq.1, heq.2, hs.1.insertFlow f, hs.2.insertFlow f⟩
  saveFlow_eq {t} h f expected := by
    obtain ⟨hsound, hcounted⟩ := h.sound
    have hlimit : ∀ g ∈ t.contents.flows, g.revision ≠ revisionLimit :=
      fun g hg hlast ↦ Nat.ne_of_lt (h.room g hg) (congrArg UInt64.toNat hlast)
    have heq := Prod.ext_iff.mp (hsound.saveFlow_eq hcounted f expected fun stored hfind ↦
      hlimit stored (List.mem_append_left _ (ListStore.find?_some hfind).1))
    exact ⟨heq.1, heq.2, hsound.saveFlow f expected, hcounted.saveFlow f expected fun r hr ↦
      hlimit r.flow (List.mem_append_left _ (List.mem_map_of_mem hr))⟩
  archiveFlow_relocates hs workspace id :=
    ⟨⟨hs.1.archiveFlow workspace id, hs.2.archiveFlow workspace id⟩,
      hs.1.archiveFlow_relocates workspace id⟩
  restoreFlow_relocates hs workspace id :=
    ⟨⟨hs.1.restoreFlow workspace id, hs.2.restoreFlow workspace id⟩,
      hs.1.restoreFlow_relocates workspace id⟩
  getFlow_copies h := by
    obtain ⟨row, hfind, hread⟩ := getFlow_eq_ok_iff.mp h
    exact copy_active (List.mem_of_find?_eq_some hfind) hread
  listFlows_copies h f hf := by
    obtain ⟨row, hrow, hread⟩ := mem_of_mapM_eq_ok h hf
    exact copy_active (List.mem_of_mem_filter hrow) hread
  listArchivedFlows_copies h f hf := by
    obtain ⟨row, hrow, hread⟩ := mem_of_mapM_eq_ok h hf
    exact copy_archived (List.mem_of_mem_filter hrow) hread

end TableStore

end GuidedTours
