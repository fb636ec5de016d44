import GuidedTours.Proofs.Store.Identity

/-!
A store of tables looked at as a store of lists: each row stands for its document, an active one
with the revision of its column. As long as the ids of all flows are distinct, the documents read
back as they were written and the revisions stay within the signed numbers, every operation on
flows acts on the tables as it acts on the lists looked at. Only the error of a restoration that
finds nothing names the archive in the one store and not in the other.
-/

set_option autoImplicit false

namespace GuidedTours

variable {f : Flow} {workspace : String} {id : FlowId}

/-- 2 ^ 63 - 1, the greatest number of a revision column. -/
def revisionLimit : UInt64 := 9223372036854775807

/-- The error of a store of tables, which tells an archived flow that is missing from an active
one. -/
def StoreError.ofArchive : StoreError → StoreError
  | .flowNotFound id => .archivedFlowNotFound id
  | e => e

theorem Flow.reread?_revision (f : Flow) (revision : UInt64) :
    Flow.reread? { f with revision } = f.reread?.map fun g ↦ { g with revision } := by
  unfold reread?
  cases f.opts.trigger.data.reread? 3 with
  | none => rfl
  | some trigger =>
    cases f.opts.finishEffect.data.reread? 3 with
    | none => rfl
    | some effect => rfl

theorem Flow.revision_eq_of_reread? {g : Flow} (h : f.reread? = some g) :
    g.revision = f.revision := by
  have hsame : { g with revision := f.revision } = g :=
    Option.some.inj ((congrArg (Option.map _) h.symm).trans
      ((f.reread?_revision f.revision).symm.trans h))
  exact (congrArg Flow.revision hsame).symm

namespace RevisionColumn

/-- The revision that is read, if any can be. -/
def revision : RevisionColumn → UInt64
  | .whole n => n.toUInt64
  | .overflown => 0

@[simp] theorem revision_ofRevision (n : UInt64) : (ofRevision n).revision = n :=
  n.toUInt64_toInt64

theorem read_ofRevision (n : UInt64) : (ofRevision n).read = .ok n :=
  congrArg Except.ok n.toUInt64_toInt64

theorem revision_of_read {c : RevisionColumn} {n : UInt64} (h : c.read = .ok n) :
    c.revision = n := by
  cases c with
  | whole m => exact Except.ok.inj h
  | overflown => nomatch h

theorem ofRevision_inj {m n : UInt64} : ofRevision m = ofRevision n ↔ m = n := by
  constructor
  · intro h
    simpa using congrArg revision h
  · exact congrArg ofRevision

theorem next_ofRevision {n : UInt64} (h : n ≠ revisionLimit) :
    (ofRevision n).next = ofRevision (n + 1) := by
  have hmax : n.toInt64 ≠ Int64.maxValue := by
    intro hn
    refine h ?_
    rw [← n.toUInt64_toInt64, hn]
    rfl
  simp [ofRevision, next, hmax, UInt64.toInt64_add]

end RevisionColumn

namespace FlowRow

variable {r : FlowRow}

/-- The flow that the row stands for. -/
def flow (r : FlowRow) : Flow := { r.document with revision := r.revision.revision }

/-- Reading the row gives what was written. -/
structure Legible (r : FlowRow) : Prop where
  document : r.document.reread? = some r.document
  revision : r.revision = .ofRevision r.flow.revision

theorem Legible.read (h : r.Legible) : r.read = .ok r.flow := by
  have hdocument : r.document.readBack = .ok r.document := by
    rw [Flow.readBack, h.document]
  rw [FlowRow.read, hdocument, h.revision, RevisionColumn.read_ofRevision]
  rfl

theorem legible_ofFlow (hf : f.reread? = some f) : (ofFlow workspace f).Legible :=
  ⟨hf, congrArg RevisionColumn.ofRevision f.revision.toUInt64_toInt64.symm⟩

theorem flow_ofFlow (workspace : String) (f : Flow) : (ofFlow workspace f).flow = f := by
  show { f with revision := _ } = f
  rw [show (ofFlow workspace f).revision.revision = f.revision from
    RevisionColumn.revision_ofRevision f.revision]

theorem Legible.reread?_flow (h : r.Legible) : r.flow.reread? = some r.flow := by
  rw [flow, Flow.reread?_revision, h.document]
  rfl

theorem Faithful.owns_flow (h : r.Faithful) :
    ListStore.owns workspace id r.flow = r.owns workspace id := by
  rw [owns, h.id_eq, h.workspace_eq]
  rfl

end FlowRow

theorem ArchivedRow.Faithful.owns_document {r : ArchivedRow} (h : r.Faithful) :
    ListStore.owns workspace id r.document = r.owns workspace id := by
  rw [ArchivedRow.owns, h.id_eq, h.workspace_eq]
  rfl

theorem ArchivedRow.read_of_reread? {r : ArchivedRow} (h : r.document.reread? = some r.document) :
    r.read = .ok r.document := by
  rw [ArchivedRow.read, Flow.readBack, h]

/-- With distinct ids, taking out the first flow with an id leaves the same as leaving out all. -/
theorem ListStore.eraseP_owns {fs : List Flow} (hids : (fs.map Flow.id).Nodup) :
    fs.eraseP (owns workspace id) = fs.filter fun f ↦ !owns workspace id f := by
  refine eraseP_eq_filter_not ((List.pairwise_map.mp hids).imp fun hne hf hg ↦ ?_)
  exact hne ((owns_iff.mp hf).1.trans (owns_iff.mp hg).1.symm)

namespace TableStore

variable {t : TableStore}

/-- The store as one of lists. -/
def contents (t : TableStore) : ListStore :=
  ⟨t.active.map FlowRow.flow, t.archived.map ArchivedRow.document, t.users, t.events⟩

/-- An answer together with the store after it, looked at as one of lists. -/
def listed {α : Type} (result : α × TableStore) : α × ListStore := (result.1, result.2.contents)

structure Legible (t : TableStore) : Prop where
  active : ∀ r ∈ t.active, r.Legible
  archived : ∀ r ∈ t.archived, r.document.reread? = some r.document

/-- Every revision is a number that can be read. -/
def Counted (t : TableStore) : Prop :=
  ∀ r ∈ t.active, r.revision = .ofRevision r.flow.revision

theorem Counted.next_revision (h : t.Counted) {row : FlowRow} (hmem : row ∈ t.active)
    (hne : row.flow.revision ≠ revisionLimit) :
    row.revision.next = .ofRevision (row.flow.revision + 1) := by
  conv_lhs => rw [h row hmem]
  exact RevisionColumn.next_ofRevision hne

namespace Sound

theorem find?_active (h : t.Sound) :
    ListStore.find? t.contents.active workspace id =
      (t.active.find? (FlowRow.owns workspace id)).map FlowRow.flow := by
  rw [ListStore.find?, contents, List.find?_map]
  exact congrArg (Option.map FlowRow.flow)
    (List.find?_congr fun r hr ↦ (h.active r hr).owns_flow)

theorem find?_archived (h : t.Sound) :
    ListStore.find? t.contents.archived workspace id =
      (t.archived.find? (ArchivedRow.owns workspace id)).map ArchivedRow.document := by
  rw [ListStore.find?, contents, List.find?_map]
  exact congrArg (Option.map ArchivedRow.document)
    (List.find?_congr fun r hr ↦ (h.archived r hr).owns_document)

theorem exists_active_iff (h : t.Sound) :
    (∃ f ∈ t.contents.active, f.id = id) ↔ ∃ r ∈ t.active, r.id = id := by
  constructor
  · rintro ⟨f, hf, hid⟩
    obtain ⟨r, hr, rfl⟩ := List.mem_map.mp hf
    exact ⟨r, hr, (h.active r hr).id_eq.trans hid⟩
  · rintro ⟨r, hr, hid⟩
    exact ⟨r.flow, List.mem_map_of_mem hr, (h.active r hr).id_eq.symm.trans hid⟩

theorem exists_archived_iff (h : t.Sound) :
    (∃ f ∈ t.contents.archived, f.id = id) ↔ ∃ r ∈ t.archived, r.id = id := by
  constructor
  · rintro ⟨f, hf, hid⟩
    obtain ⟨r, hr, rfl⟩ := List.mem_map.mp hf
    exact ⟨r, hr, (h.archived r hr).id_eq.trans hid⟩
  · rintro ⟨r, hr, hid⟩
    exact ⟨r.document, List.mem_map_of_mem hr, (h.archived r hr).id_eq.symm.trans hid⟩

theorem erase_active (h : t.Sound) (workspace : String) (id : FlowId) :
    (t.active.filter fun r ↦ !r.owns workspace id).map FlowRow.flow =
      t.contents.active.eraseP (ListStore.owns workspace id) := by
  have hids : (t.contents.active.map Flow.id).Nodup := by
    rw [contents, List.map_map]
    exact h.distinctIds.active
  rw [ListStore.eraseP_owns hids, contents, List.filter_map]
  refine congrArg (List.map FlowRow.flow) (List.filter_congr fun r hr ↦ ?_)
  exact congrArg not (h.active r hr).owns_flow.symm

theorem erase_archived (h : t.Sound) (workspace : String) (id : FlowId) :
    (t.archived.filter fun r ↦ !r.owns workspace id).map ArchivedRow.document =
      t.contents.archived.eraseP (ListStore.owns workspace id) := by
  have hids : (t.contents.archived.map Flow.id).Nodup := by
    rw [contents, List.map_map]
    exact h.distinctIds.archived
  rw [ListStore.eraseP_owns hids, contents, List.filter_map]
  refine congrArg (List.map ArchivedRow.document) (List.filter_congr fun r hr ↦ ?_)
  exact congrArg not (h.archived r hr).owns_document.symm

theorem contents_archived (h : t.Sound) (workspace : String) (id : FlowId) (f : Flow) :
    contents { t with
      active := t.active.filter fun r ↦ !r.owns workspace id
      archived := t.archived ++ [⟨id, workspace, f⟩] } =
    { t.contents with
      active := t.contents.active.eraseP (ListStore.owns workspace id)
      archived := t.contents.archived ++ [f] } := by
  rw [← h.erase_active]
  simp [contents]

theorem contents_restored (h : t.Sound) (workspace : String) (id : FlowId) (f : Flow) :
    contents { t with
      active := t.active ++ [{ FlowRow.ofFlow workspace f with id }]
      archived := t.archived.filter fun r ↦ !r.owns workspace id } =
    { t.contents with
      active := t.contents.active ++ [f]
      archived := t.contents.archived.eraseP (ListStore.owns workspace id) } := by
  have hrow : FlowRow.flow { FlowRow.ofFlow workspace f with id } = f :=
    FlowRow.flow_ofFlow workspace f
  rw [← h.erase_archived]
  simp [contents, hrow]

theorem contents_append (t : TableStore) (workspace : String) (f : Flow) :
    contents { t with active := t.active ++ [FlowRow.ofFlow workspace f] } =
      { t.contents with active := t.contents.active ++ [f] } := by
  simp [contents, FlowRow.flow_ofFlow]

theorem insertFlow_eq (h : t.Sound) (f : Flow) :
    listed (insertRow (.ofFlow f.workspace f) t) = ListStore.insertFlow f t.contents := by
  rcases insertRow_cases (.ofFlow f.workspace f) t with ⟨htaken, heq⟩ | ⟨hnew, heq⟩
  · rcases ListStore.insertFlow_cases f t.contents with ⟨-, heq'⟩ | ⟨hnew', -⟩
    · rw [heq, heq']
      rfl
    · obtain ⟨g, hg, hid⟩ := h.exists_active_iff.mpr htaken
      exact absurd hid (hnew' g hg)
  · rcases ListStore.insertFlow_cases f t.contents with ⟨htaken', -⟩ | ⟨-, heq'⟩
    · obtain ⟨r, hr, hid⟩ := h.exists_active_iff.mp htaken'
      exact absurd hid (hnew r hr)
    · rw [heq, heq', ← contents_append t f.workspace]
      rfl

theorem saveFlow_eq (h : t.Sound) (hcounted : t.Counted) (f : Flow) (expected : Option UInt64)
    (hbounded : ∀ stored, ListStore.find? t.contents.active f.workspace f.id = some stored →
      stored.revision ≠ revisionLimit) :
    listed (TableStore.saveFlow f expected t) = ListStore.saveFlow f expected t.contents := by
  rw [TableStore.saveFlow, ListStore.saveFlow, h.find?_active]
  cases hfind : t.active.find? (FlowRow.owns f.workspace f.id) with
  | none => rfl
  | some row =>
    have hmem : row ∈ t.active := List.mem_of_find?_eq_some hfind
    have hrevision := hcounted row hmem
    have hconflict : expected.filter (fun e ↦ row.revision ≠ .ofRevision e) =
        expected.filter (· ≠ row.flow.revision) := by
      refine congrArg (expected.filter ·) (funext fun e ↦ ?_)
      rw [hrevision]
      simp [RevisionColumn.ofRevision_inj, eq_comm]
    simp only [Option.map_some, hconflict]
    cases expected.filter (· ≠ row.flow.revision) with
    | some e =>
      rw [hrevision, RevisionColumn.read_ofRevision]
      rfl
    | none =>
      have hactive : (modifyFirst (FlowRow.owns f.workspace f.id)
          (fun r ↦ { r with
            live := f.live, revision := .ofRevision (row.flow.revision + 1), document := f })
          t.active).map FlowRow.flow = modifyFirst (ListStore.owns f.workspace f.id)
            (fun _ ↦ { f with revision := row.flow.revision + 1 }) t.contents.active := by
        refine map_modifyFirst_of_corresponds
          (fun r hr ↦ (h.active r hr).owns_flow) fun r _ _ ↦ ?_
        rw [FlowRow.flow, RevisionColumn.revision_ofRevision]
      have hne : row.flow.revision ≠ revisionLimit := by
        refine hbounded row.flow ?_
        rw [h.find?_active, hfind]
        rfl
      simp only [hcounted.next_revision hmem hne, RevisionColumn.read_ofRevision, listed, contents]
      rw [hactive]
      rfl

end Sound

/-- A store of tables whose rows are all as they should be. -/
structure Orderly (t : TableStore) : Prop where
  sound : t.Sound
  legible : t.Legible
  distinct : t.contents.ids.Nodup
  bounded : ∀ f ∈ t.contents.flows, f.revision < revisionLimit

namespace Orderly

theorem empty : Orderly (Store.empty : TableStore) :=
  ⟨Sound.empty, ⟨fun _ h ↦ absurd h List.not_mem_nil, fun _ h ↦ absurd h List.not_mem_nil⟩,
    List.nodup_nil, fun _ h ↦ absurd h List.not_mem_nil⟩

theorem counted (h : t.Orderly) : t.Counted := fun r hr ↦ (h.legible.active r hr).revision

theorem next_revision (h : t.Orderly) {row : FlowRow} (hmem : row ∈ t.active) :
    row.revision.next = .ofRevision (row.flow.revision + 1) :=
  h.counted.next_revision hmem <| UInt64.ne_of_lt <|
    h.bounded _ (List.mem_append_left _ (List.mem_map_of_mem hmem))

theorem saveFlow_eq (h : t.Orderly) (f : Flow) (expected : Option UInt64) :
    listed (saveFlow f expected t) = ListStore.saveFlow f expected t.contents :=
  h.sound.saveFlow_eq h.counted f expected fun stored hfind ↦ UInt64.ne_of_lt <|
    h.bounded stored (List.mem_append_left _ (ListStore.find?_some hfind).1)

theorem distinct_append (h : t.Orderly) :
    (t.contents.active.map Flow.id ++ t.contents.archived.map Flow.id).Nodup := by
  rw [← List.map_append]
  exact h.distinct

theorem getFlow_eq (h : t.Orderly) :
    getFlow workspace id t = ListStore.getFlow workspace id t.contents := by
  rw [getFlow, ListStore.getFlow, h.sound.find?_active]
  cases hfind : t.active.find? (FlowRow.owns workspace id) with
  | none => rfl
  | some row => exact (h.legible.active row (List.mem_of_find?_eq_some hfind)).read

theorem mapM_active (h : t.Orderly) {p : FlowRow → Bool} {q : Flow → Bool}
    (hpq : ∀ r ∈ t.active, q r.flow = p r) :
    (t.active.filter p).mapM FlowRow.read = .ok (t.contents.active.filter q) := by
  rw [mapM_eq_ok_map (g := FlowRow.flow) fun r hr ↦
      (h.legible.active r (List.mem_of_mem_filter hr)).read,
    contents, List.filter_map]
  exact congrArg (fun rows ↦ Except.ok (List.map FlowRow.flow rows))
    (List.filter_congr fun r hr ↦ (hpq r hr).symm)

theorem mapM_archived (h : t.Orderly) :
    (t.archived.filter (·.workspace = workspace)).mapM ArchivedRow.read =
      .ok (t.contents.archived.filter (·.workspace = workspace)) := by
  rw [mapM_eq_ok_map (g := ArchivedRow.document) fun r hr ↦
      ArchivedRow.read_of_reread? (h.legible.archived r (List.mem_of_mem_filter hr)),
    contents, List.filter_map]
  refine congrArg (fun rows ↦ Except.ok (List.map ArchivedRow.document rows))
    (List.filter_congr fun r hr ↦ ?_)
  simp [(h.sound.archived r hr).workspace_eq]

theorem archiveFlow_eq (h : t.Orderly) (workspace : String) (id : FlowId) :
    listed (archiveFlow workspace id t) = ListStore.archiveFlow workspace id t.contents := by
  rw [archiveFlow, getFlow, ListStore.archiveFlow, h.sound.find?_active]
  cases hfind : t.active.find? (FlowRow.owns workspace id) with
  | none => rfl
  | some row =>
    have hmem : row ∈ t.active := List.mem_of_find?_eq_some hfind
    have hid : row.flow.id = id :=
      (h.sound.active row hmem).id_eq.symm.trans (FlowRow.owns_iff.mp (List.find?_some hfind)).1
    have hnew : ¬ t.archived.any (·.id = id) := by
      intro htaken
      obtain ⟨g, hg, hgid⟩ := h.sound.exists_archived_iff.mpr (by simpa using htaken)
      exact (List.nodup_append.mp h.distinct_append).2.2 _
        (List.mem_map_of_mem (List.mem_map_of_mem hmem)) _ (List.mem_map_of_mem hg)
        (hid.trans hgid.symm)
    simp only [(h.legible.active row hmem).read, if_neg hnew, listed, h.sound.contents_archived]
    rfl

/-- Only the error differs, where there is nothing to restore. -/
theorem restoreFlow_eq (h : t.Orderly) (workspace : String) (id : FlowId) :
    listed (restoreFlow workspace id t) =
      ((ListStore.restoreFlow workspace id t.contents).1.mapError StoreError.ofArchive,
        (ListStore.restoreFlow workspace id t.contents).2) := by
  rw [restoreFlow, ListStore.restoreFlow, h.sound.find?_archived]
  cases hfind : t.archived.find? (ArchivedRow.owns workspace id) with
  | none => rfl
  | some row =>
    have hmem : row ∈ t.archived := List.mem_of_find?_eq_some hfind
    have hid : row.document.id = id := (h.sound.archived row hmem).id_eq.symm.trans
      (ArchivedRow.owns_iff.mp (List.find?_some hfind)).1
    have hinsert : insertRow { FlowRow.ofFlow workspace row.document with id } t =
        (.ok (), { t with
          active := t.active ++ [{ FlowRow.ofFlow workspace row.document with id }] }) := by
      rcases insertRow_cases { FlowRow.ofFlow workspace row.document with id } t with
        ⟨htaken, -⟩ | ⟨-, heq⟩
      · obtain ⟨g, hg, hgid⟩ := h.sound.exists_active_iff.mpr htaken
        exact absurd (hgid.trans hid.symm) ((List.nodup_append.mp h.distinct_append).2.2 _
          (List.mem_map_of_mem hg) _ (List.mem_map_of_mem (List.mem_map_of_mem hmem)))
      · exact heq
    simp only [ArchivedRow.read_of_reread? (h.legible.archived row hmem), hinsert, listed,
      h.sound.contents_restored, Option.map_some]
    rfl

end Orderly

end TableStore

end GuidedTours
