import GuidedTours.Proofs.Store.Contents

/-!
The two kinds of stores side by side. From empty stores on both answer alike, with the same values,
orders and revisions, if no id of the archive is inserted anew, what is written reads back as it was
written, and no revision reaches the greatest signed number. What carries this along a run is that
the store of tables stays orderly and that its contents are the store of lists.
-/

set_option autoImplicit false

namespace GuidedTours

open StoreRequest

namespace TableStore.Orderly

variable {t : TableStore} {f : Flow}

theorem legible_insertFlow (h : t.Orderly) (hf : f.reread? = some f) :
    (insertRow (.ofFlow f.workspace f) t).2.Legible := by
  rcases insertRow_cases (.ofFlow f.workspace f) t with ⟨-, heq⟩ | ⟨-, heq⟩
  · rw [heq]
    exact h.legible
  · rw [heq]
    refine ⟨fun r hr ↦ ?_, h.legible.archived⟩
    rcases List.mem_append.mp hr with hr | hr
    · exact h.legible.active r hr
    · exact List.mem_singleton.mp hr ▸ FlowRow.legible_ofFlow hf

theorem legible_saveFlow (h : t.Orderly) (hf : f.reread? = some f) (expected : Option UInt64) :
    (saveFlow f expected t).2.Legible := by
  rcases saveFlow_cases f expected t with ⟨e, heq⟩ | ⟨row, hfind, -, heq⟩
  · rw [heq]
    exact h.legible
  · rw [heq, h.next_revision (List.mem_of_find?_eq_some hfind)]
    refine ⟨fun r hr ↦ ?_, h.legible.archived⟩
    rcases mem_modifyFirst hr with hr | ⟨old, -, -, rfl⟩
    · exact h.legible.active r hr
    · exact ⟨hf, congrArg RevisionColumn.ofRevision
        (RevisionColumn.revision_ofRevision _).symm⟩

theorem legible_archiveFlow (h : t.Orderly) (workspace : String) (id : FlowId) :
    (archiveFlow workspace id t).2.Legible := by
  rcases archiveFlow_cases workspace id t with ⟨e, heq⟩ | ⟨f, hget, -, heq⟩
  · rw [heq]
    exact h.legible
  · obtain ⟨row, hfind, hread⟩ := getFlow_eq_ok_iff.mp hget
    have hrow := h.legible.active row (List.mem_of_find?_eq_some hfind)
    obtain rfl : row.flow = f := Except.ok.inj (hrow.read.symm.trans hread)
    rw [heq]
    refine ⟨fun r hr ↦ h.legible.active r (List.mem_of_mem_filter hr), fun r hr ↦ ?_⟩
    rcases List.mem_append.mp hr with hr | hr
    · exact h.legible.archived r hr
    · rw [List.mem_singleton.mp hr]
      exact hrow.reread?_flow

theorem legible_restoreFlow (h : t.Orderly) (workspace : String) (id : FlowId) :
    (restoreFlow workspace id t).2.Legible := by
  rcases restoreFlow_cases workspace id t with ⟨e, heq⟩ | ⟨row, f, hfind, hread, -, heq⟩
  · rw [heq]
    exact h.legible
  · have hrow := h.legible.archived row (List.mem_of_find?_eq_some hfind)
    obtain rfl : row.document = f :=
      Except.ok.inj ((ArchivedRow.read_of_reread? hrow).symm.trans hread)
    rw [heq]
    refine ⟨fun r hr ↦ ?_, fun r hr ↦ h.legible.archived r (List.mem_of_mem_filter hr)⟩
    rcases List.mem_append.mp hr with hr | hr
    · exact h.legible.active r hr
    · rw [List.mem_singleton.mp hr]
      have hmoved : (FlowRow.ofFlow workspace row.document).Legible := FlowRow.legible_ofFlow hrow
      exact ⟨hmoved.document, hmoved.revision⟩

end TableStore.Orderly

namespace StoreRequest

/-- The flow that the request writes. -/
def document? : StoreRequest → Option Flow
  | .insertFlow f | .saveFlow f _ => some f
  | _ => none

/-- What a store of tables answers where a store of lists gives an answer. -/
def inTables : StoreRequest → Except StoreError StoreAnswer → Except StoreError StoreAnswer
  | .restoreFlow _ _, answer => answer.mapError StoreError.ofArchive
  | _, answer => answer

/-- The request inserts no id of the archive, what it writes reads back as it was written, and no
revision reaches the limit through it. -/
structure Comparable (s : ListStore) (r : StoreRequest) : Prop where
  fresh : s.Fresh r
  readsBack : ∀ f, r.document? = some f → f.reread? = some f
  bounded : ∀ f ∈ (r.perform s).2.flows, f.revision < revisionLimit

end StoreRequest

namespace TableStore.Orderly

variable {t : TableStore}

theorem legible_perform (h : t.Orderly) (r : StoreRequest)
    (hr : ∀ f, r.document? = some f → f.reread? = some f) : (r.perform t).2.Legible := by
  cases r with
  | insertFlow f => exact h.legible_insertFlow (hr f rfl)
  | saveFlow f expected => exact h.legible_saveFlow (hr f rfl) expected
  | archiveFlow workspace id => exact h.legible_archiveFlow workspace id
  | restoreFlow workspace id => exact h.legible_restoreFlow workspace id
  | putUserState _ | recordEvents _ => exact ⟨h.legible.active, h.legible.archived⟩
  | getFlow _ _ | listFlows _ | listLiveFlows _ | listArchivedFlows _ | getUserState _ _
  | listEvents _ _ => exact h.legible

/-- Every request gives the same on the tables and on the lists that they stand for. -/
theorem listed_perform (h : t.Orderly) (r : StoreRequest) :
    listed (r.perform t) = (r.inTables (r.perform t.contents).1, (r.perform t.contents).2) := by
  cases r with
  | insertFlow f =>
    have heq := Prod.ext_iff.mp (h.sound.insertFlow_eq f)
    exact Prod.ext (congrArg (Except.map _) heq.1) heq.2
  | saveFlow f expected =>
    have heq := Prod.ext_iff.mp (h.saveFlow_eq f expected)
    exact Prod.ext (congrArg (Except.map _) heq.1) heq.2
  | archiveFlow workspace id =>
    have heq := Prod.ext_iff.mp (h.archiveFlow_eq workspace id)
    exact Prod.ext (congrArg (Except.map _) heq.1) heq.2
  | restoreFlow workspace id =>
    have heq := Prod.ext_iff.mp (h.restoreFlow_eq workspace id)
    refine Prod.ext ((congrArg (Except.map _) heq.1).trans ?_) heq.2
    exact map_mapError _ _ _
  | getFlow workspace id =>
    exact Prod.ext (congrArg (Except.map StoreAnswer.flow) h.getFlow_eq) rfl
  | listFlows workspace =>
    refine Prod.ext (congrArg (Except.map StoreAnswer.flows) (h.mapM_active fun r hr ↦ ?_)) rfl
    rw [(h.sound.active r hr).workspace_eq]
    rfl
  | listLiveFlows workspace =>
    refine Prod.ext (congrArg (Except.map StoreAnswer.flows) (h.mapM_active fun r hr ↦ ?_)) rfl
    rw [(h.sound.active r hr).workspace_eq, (h.sound.active r hr).live_eq]
    rfl
  | listArchivedFlows workspace =>
    exact Prod.ext (congrArg (Except.map StoreAnswer.flows) h.mapM_archived) rfl
  | putUserState _ | recordEvents _ | getUserState _ _ | listEvents _ _ => rfl

theorem contents_perform (h : t.Orderly) (r : StoreRequest) :
    (r.perform t).2.contents = (r.perform t.contents).2 :=
  congrArg Prod.snd (h.listed_perform r)

theorem perform (h : t.Orderly) {r : StoreRequest} (hr : r.Comparable t.contents) :
    (r.perform t).2.Orderly := by
  refine ⟨perform_keeps Sound.kept h.sound r, h.legible_perform r hr.readsBack, ?_, ?_⟩
  · rw [h.contents_perform r]
    exact ListStore.nodup_ids_perform r h.distinct hr.fresh
  · rw [h.contents_perform r]
    exact hr.bounded

theorem answers_eq {requests : List StoreRequest} (h : t.Orderly)
    (halong : Along Comparable t.contents requests) :
    answers t requests = List.zipWith inTables requests (answers t.contents requests) := by
  induction requests generalizing t with
  | nil => rfl
  | cons r rest ih =>
    have hanswer : (r.perform t).1 = r.inTables (r.perform t.contents).1 :=
      congrArg Prod.fst (h.listed_perform r)
    have hrest : Along Comparable (r.perform t).2.contents rest := by
      rw [h.contents_perform r]
      exact halong.2
    rw [answers, answers, List.zipWith_cons_cons, ih (h.perform halong.1) hrest,
      h.contents_perform r]
    exact congrArg (· :: _) hanswer

end TableStore.Orderly

/-- Stores of either kind answer alike from the beginning on, with the same values, orders and
revisions. -/
theorem tables_answer_as_lists {requests : List StoreRequest}
    (h : Along Comparable Store.empty requests) :
    answers (Store.empty : TableStore) requests =
      List.zipWith inTables requests (answers (Store.empty : ListStore) requests) :=
  TableStore.Orderly.empty.answers_eq h

/-- A flow is saved, saved too late, archived and restored. -/
def lifecycle : List StoreRequest := [
  .insertFlow Desk.draft, .saveFlow { Desk.draft with live := true } (some 0),
  .saveFlow Desk.draft (some 0), .archiveFlow "w" Desk.draft.id, .restoreFlow "w" ⟨8⟩,
  .restoreFlow "w" Desk.draft.id, .listLiveFlows "w"]

theorem tables_answer_as_lists_lifecycle :
    Along Comparable Store.empty lifecycle ∧
    answers (Store.empty : TableStore) lifecycle =
      List.zipWith inTables lifecycle (answers (Store.empty : ListStore) lifecycle) := by
  have hdraft : Desk.draft.reread? = some Desk.draft := rfl
  have hlive : Flow.reread? { Desk.draft with live := true } =
      some { Desk.draft with live := true } := rfl
  have halong : Along Comparable Store.empty lifecycle := by
    refine ⟨⟨fun g hg ↦ absurd hg List.not_mem_nil, ?_, ?_⟩, ⟨trivial, ?_, ?_⟩, ⟨trivial, ?_, ?_⟩,
      ⟨trivial, ?_, ?_⟩, ⟨trivial, ?_, ?_⟩, ⟨trivial, ?_, ?_⟩, ⟨trivial, ?_, ?_⟩, trivial⟩
    all_goals first
      | decide
      | exact fun f hf ↦ Option.some.inj hf ▸ hdraft
      | exact fun f hf ↦ Option.some.inj hf ▸ hlive
      | exact fun f hf ↦ nomatch hf
  exact ⟨halong, tables_answer_as_lists halong⟩

end GuidedTours
