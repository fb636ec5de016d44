import GuidedTours.Proofs.Editor.Revisions
import GuidedTours.Proofs.Sessions
import GuidedTours.Proofs.Store.Moves

/-!
A flow that is archived and later restored. As long as it is in the archive it cannot be found by
anybody, whatever happens to other flows, users and events. When it is restored it is the last of
its workspace and the others are in the order in which they were. A store of tables copies the flow
on either way, and so it comes back unchanged exactly if copying it twice gives it again.
-/

set_option autoImplicit false

namespace GuidedTours

open Copying

section Statements

variable {σ : Type} [Store σ]

/-- The store at some time after a flow has been archived. -/
def whileArchived (workspace : String) (id : FlowId) (between : List StoreRequest) (s : σ) : σ :=
  StoreRequest.after (Store.archiveFlow workspace id s).2 between

/-- The store after the flow has been restored. -/
def onceRestored (workspace : String) (id : FlowId) (between : List StoreRequest) (s : σ) : σ :=
  (Store.restoreFlow workspace id (whileArchived workspace id between s)).2

/-- No active flow with the id can be found in any way. -/
structure Withdrawn (id : FlowId) (s : σ) : Prop where
  getFlow (workspace : String) : Store.getFlow workspace id s = .error (.flowNotFound id)
  saveFlow (f : Flow) (expected : Option UInt64) (hid : f.id = id) :
    Store.saveFlow f expected s = (.error (.flowNotFound id), s)
  listFlows (workspace : String) (fs : List Flow) (h : Store.listFlows workspace s = .ok fs) :
    ∀ f ∈ fs, f.id ≠ id
  listLiveFlows (workspace : String) (fs : List Flow)
    (h : Store.listLiveFlows workspace s = .ok fs) : ∀ f ∈ fs, f.id ≠ id
  liveFlow (workspace raw : String) (hraw : FlowId.parseEntered? raw = some id) :
    Enrollment.liveFlow workspace raw s = .ok none
  resolve (workspace : String) (opts : EnrollmentOpts) (now : Moment) (f : Flow)
    (h : Enrollment.resolve workspace opts now s = .ok (some f)) : f.id ≠ id

/-- What comes of a flow that is archived and, after other requests, restored. -/
structure Restored [Copying σ] (workspace : String) (id : FlowId) (f : Flow)
    (between : List StoreRequest) (s : σ) : Prop where
  archives : (Store.archiveFlow workspace id s).1 = .ok ()
  withdrawn : Withdrawn id (whileArchived workspace id between s)
  /-- The copy in the archive must be readable. -/
  restores : (Store.restoreFlow workspace id (whileArchived workspace id between s)).1 = .ok () ↔
    (copy? σ f).isSome
  identical : Store.getFlow workspace id (onceRestored workspace id between s) = .ok f ↔
    copies? σ 2 f = some f
  /-- At most open data differ. -/
  same (g : Flow) (h : Store.getFlow workspace id (onceRestored workspace id between s) = .ok g) :
    g.core = f.core ∧ g.revision = f.revision
  last (hok : (Store.restoreFlow workspace id (whileArchived workspace id between s)).1 = .ok ()) :
    Store.listFlows workspace (onceRestored workspace id between s) = do
      let others ← Store.listFlows workspace (whileArchived workspace id between s)
      let g ← Store.getFlow workspace id (onceRestored workspace id between s)
      return others ++ [g]
  /-- Flows that nothing in between moves keep their order. -/
  order (p : FlowId → Bool) (hid : ¬ p id)
    (hbetween : ∀ r ∈ between, ∀ i, r.moved? = some i → ¬ p i) (asked : String)
    (fs fs' : List Flow) (h : Store.listFlows asked s = .ok fs)
    (h' : Store.listFlows asked (onceRestored workspace id between s) = .ok fs') :
    (fs'.map Flow.id).filter p = (fs.map Flow.id).filter p
  gone (asked : String) (fs : List Flow)
    (hok : (Store.restoreFlow workspace id (whileArchived workspace id between s)).1 = .ok ())
    (h : Store.listArchivedFlows asked (onceRestored workspace id between s) = .ok fs) :
    ∀ g ∈ fs, g.id ≠ id

variable [Copying σ] {s : σ} {workspace : String} {id : FlowId} {f : Flow}
  {between : List StoreRequest}

/-- A flow that is copied exactly comes back. -/
theorem Restored.of_copy_self (h : Restored workspace id f between s)
    (hself : copy? σ f = some f) :
    (Store.restoreFlow workspace id (whileArchived workspace id between s)).1 = .ok () ∧
      Store.getFlow workspace id (onceRestored workspace id between s) = .ok f :=
  ⟨h.restores.mpr (hself ▸ rfl), h.identical.mpr (copies?_of_self hself 2)⟩

end Statements

section Generic

variable {σ : Type} [Store σ] [Shelves σ] [Copying σ] [Rows σ] [ArchiveRows σ] [LawfulRows σ]
variable [LawfulMoves σ] {s : σ} {workspace : String} {id : FlowId} {f g : Flow}
  {between : List StoreRequest}

namespace Enrollment

omit [Shelves σ] [Copying σ] [Rows σ] [ArchiveRows σ] [LawfulRows σ] [LawfulMoves σ] in
theorem getFlow_of_liveFlow {raw : String} (h : liveFlow workspace raw s = .ok (some f)) :
    ∃ i, Store.getFlow workspace i s = .ok f := by
  unfold liveFlow at h
  obtain ⟨i, -, h⟩ := bind_eq_ok_iff.mp h
  refine ⟨i, ?_⟩
  cases hget : Store.getFlow workspace i s with
  | error e =>
    rw [hget] at h
    cases hfound : e.isNotFound <;> simp [hfound] at h
  | ok g =>
    rw [hget] at h
    by_cases hlive : g.live
    · simpa [hlive] using h
    · simp [hlive] at h

omit [Shelves σ] [Copying σ] [Rows σ] [ArchiveRows σ] [LawfulRows σ] [LawfulMoves σ] in
/-- A resolved flow has been looked up or listed. -/
theorem resolve_cases_some {opts : EnrollmentOpts} {now : Moment}
    (h : resolve workspace opts now s = .ok (some f)) :
    (∃ i, Store.getFlow workspace i s = .ok f) ∨
      ∃ fs, Store.listLiveFlows workspace s = .ok fs ∧ f ∈ fs := by
  unfold resolve at h
  split at h
  next current => exact .inl (getFlow_of_liveFlow h)
  next =>
    cases hlist : Store.listLiveFlows workspace s with
    | error e =>
      rw [hlist] at h
      nomatch h
    | ok fs =>
      rw [hlist] at h
      exact .inr ⟨fs, rfl, List.mem_of_find?_eq_some (Except.ok.inj h)⟩

end Enrollment

open Enrollment in
theorem PutAway.withdrawn (h : PutAway workspace id f s) (hs : Shelves.Sound s) :
    Withdrawn id s where
  getFlow := h.getFlow
  saveFlow g expected hid := h.saveFlow hid expected
  listFlows asked fs hlist g hg := h.listFlows hs hlist hg
  listLiveFlows asked fs hlist g hg := h.listLiveFlows hs hlist hg
  liveFlow asked raw hraw := by
    rw [liveFlow, parseFlowId_of_some hraw]
    simp only [ok_bind, h.getFlow]
    rfl
  resolve asked opts now g hanswer hid := by
    rcases resolve_cases_some hanswer with ⟨i, hget⟩ | ⟨fs, hlist, hg⟩
    · have hi : i = id := (LawfulRows.keys_of_getFlow hs hget).1.symm.trans hid
      rw [hi, h.getFlow] at hget
      nomatch hget
    · exact h.listLiveFlows hs hlist hg hid

/-- The flow is put away and stays so until it is restored. -/
theorem putAway_whileArchived (hs : Shelves.Sound s)
    (hget : Store.getFlow workspace id s = .ok f)
    (honce : (Rows.active s).countP (Rows.id · = id) ≤ 1)
    (hfree : ∀ a ∈ ArchiveRows.archived s, ArchiveRows.id a ≠ id)
    (hbetween : ∀ r ∈ between, r.Leaves id) :
    (Store.archiveFlow workspace id s).1 = .ok () ∧
      Shelves.Sound (whileArchived workspace id between s) ∧
      PutAway workspace id f (whileArchived workspace id between s) := by
  rcases LawfulMoves.archiveFlow_cases hs workspace id with
    ⟨hunread | ⟨a, ha, hid⟩, -⟩ | ⟨g, s', heq, hmove⟩
  · exact absurd hget (hunread f)
  · exact absurd hid (hfree a ha)
  · obtain rfl : g = f := Except.ok.inj (hmove.getFlow.symm.trans hget)
    have hsound := Shelves.sound_kept.archiveFlow workspace id s hs
    rw [whileArchived]
    rw [heq] at hsound ⊢
    have hstep : ∀ (s : σ) (r : StoreRequest),
        Shelves.Sound s ∧ PutAway workspace id g s → r.Leaves id →
        Shelves.Sound (r.perform s).2 ∧ PutAway workspace id g (r.perform s).2 :=
      fun _ r h hr ↦ ⟨StoreRequest.perform_keeps Shelves.sound_kept h.1 r, h.2.perform h.1 hr⟩
    exact ⟨rfl, StoreRequest.after_of_forall hstep ⟨hsound, hmove.putAway honce hfree⟩ hbetween⟩

omit [LawfulRows σ] in
/-- Rows that are not moved stay in their order all the way. -/
theorem filter_places_onceRestored (workspace : String) (hs : Shelves.Sound s)
    (q : String × FlowId → Bool) (hid : ∀ asked, ¬ q (asked, id))
    (hbetween : ∀ r ∈ between, ∀ i, r.moved? = some i → ∀ asked, ¬ q (asked, i)) :
    Shelves.Sound (onceRestored workspace id between s) ∧
      (places (onceRestored workspace id between s)).filter q = (places s).filter q := by
  have hstep : ∀ (s' : σ) (r : StoreRequest),
      Shelves.Sound s' ∧ (places s').filter q = (places s).filter q →
      (∀ i, r.moved? = some i → ∀ asked, ¬ q (asked, i)) →
      Shelves.Sound (r.perform s').2 ∧ (places (r.perform s').2).filter q = (places s).filter q :=
    fun _ r h hr ↦ ⟨StoreRequest.perform_keeps Shelves.sound_kept h.1 r,
      (filter_places_perform h.1 hr).trans h.2⟩
  have hmoves : ∀ i, some id = some i → ∀ asked, ¬ q (asked, i) := by
    intro i hi
    obtain rfl := Option.some.inj hi
    exact hid
  have harchived := hstep s (.archiveFlow workspace id) ⟨hs, rfl⟩ hmoves
  have hbefore := StoreRequest.after_of_forall hstep harchived hbetween
  exact hstep _ (.restoreFlow workspace id) hbefore hmoves

/-- Rows of one workspace that are not moved are listed in their order all the way. -/
theorem filter_listed_onceRestored (hs : Shelves.Sound s) {p : FlowId → Bool} (hid : ¬ p id)
    (hbetween : ∀ r ∈ between, ∀ i, r.moved? = some i → ¬ p i) {asked : String}
    {fs fs' : List Flow} (h : Store.listFlows asked s = .ok fs)
    (h' : Store.listFlows asked (onceRestored workspace id between s) = .ok fs') :
    (fs'.map Flow.id).filter p = (fs.map Flow.id).filter p := by
  have hpassed {i : FlowId} (hi : ¬ p i) (place : String) :
      ¬ (p (place, i).2 && (place, i).1 = asked) := by simp [hi]
  obtain ⟨hsound, hplaces⟩ := filter_places_onceRestored workspace hs
    (fun k ↦ p k.2 && k.1 = asked) (hpassed hid) fun r hr i hi ↦ hpassed (hbetween r hr i hi)
  rw [map_id_of_listFlows hs h, map_id_of_listFlows hsound h', filter_listing, filter_listing,
    hplaces]

/-- A request that moves nothing changes the order of no listing. -/
theorem map_id_of_moved?_eq_none (hs : Shelves.Sound s) {r : StoreRequest} (hr : r.moved? = none)
    {fs fs' : List Flow} (h : Store.listFlows workspace s = .ok fs)
    (h' : Store.listFlows workspace (r.perform s).2 = .ok fs') :
    fs'.map Flow.id = fs.map Flow.id := by
  have hplaces : (places (r.perform s).2).filter (·.1 = workspace) =
      (places s).filter (·.1 = workspace) :=
    filter_places_perform hs fun i hi ↦ nomatch hr.symm.trans hi
  have hsound := StoreRequest.perform_keeps Shelves.sound_kept hs r
  rw [map_id_of_listFlows hs h, map_id_of_listFlows hsound h', listing, listing, hplaces]

section Outcomes

variable (hs : Shelves.Sound s) (harchives : (Store.archiveFlow workspace id s).1 = .ok ())
  (hsound : Shelves.Sound (whileArchived workspace id between s))
  (hput : PutAway workspace id f (whileArchived workspace id between s))

include hs harchives hsound hput

/-- A flow whose copy in the archive cannot be read stays there. -/
theorem restored_of_lost (hcopy : copy? σ f = none) : Restored workspace id f between s := by
  obtain ⟨e, heq⟩ := hput.lost hsound hcopy
  have hstays : onceRestored workspace id between s = whileArchived workspace id between s := by
    rw [onceRestored, heq]
  have hfails : (Store.restoreFlow workspace id (whileArchived workspace id between s)).1 ≠
      .ok () := by
    rw [heq]
    nofun
  have hnone : ∀ g, Store.getFlow workspace id (onceRestored workspace id between s) ≠ .ok g := by
    intro g hg
    rw [hstays, hput.getFlow] at hg
    nomatch hg
  exact {
    archives := harchives
    withdrawn := hput.withdrawn hsound
    restores := by simp [hfails, hcopy]
    identical := by simp [hnone, copies?, hcopy]
    same := fun g hg ↦ absurd hg (hnone g)
    last := fun hok ↦ absurd hok hfails
    order := fun p hid hmoved asked fs fs' ↦ filter_listed_onceRestored hs hid hmoved
    gone := fun asked fs hok ↦ absurd hok hfails }

/-- The flow comes back as the copy of its copy. -/
theorem restored_of_copy [LawfulCopying σ] (hcopy : copy? σ f = some g) :
    Restored workspace id f between s := by
  obtain ⟨s', heq, hmove⟩ := hput.restore hsound hcopy
  have hreturned : onceRestored workspace id between s = s' := by rw [onceRestored, heq]
  have hshown : Store.getFlow workspace id (onceRestored workspace id between s) = shown σ g := by
    rw [hreturned, hput.getFlow_returned hmove]
  have hread (h : Flow) : shown σ g = .ok h ↔ copies? σ 2 f = some h := by
    rw [copies?, hcopy, Option.bind_some, copies?_one, shown]
    cases copy? σ g <;> simp
  exact {
    archives := harchives
    withdrawn := hput.withdrawn hsound
    restores := by simp [heq, hcopy]
    identical := hshown ▸ hread f
    same := fun h hh ↦ copies?_keeps ((hread h).mp (hshown.symm.trans hh))
    last := fun _ ↦ by
      rw [hshown, hreturned]
      exact hmove.listFlows
    order := fun p hid hmoved asked fs fs' ↦ filter_listed_onceRestored hs hid hmoved
    gone := fun asked fs _ hlist x hx ↦ by
      have hsound' := Shelves.sound_kept.restoreFlow workspace id _ hsound
      rw [heq] at hsound'
      rw [hreturned, LawfulMoves.listArchivedFlows_eq] at hlist
      obtain ⟨a, ha, hread⟩ := mem_of_mapM_eq_ok hlist hx
      rw [LawfulMoves.archived_faithful hsound' (List.mem_of_mem_filter ha) hread]
      exact hput.archived_returned hmove a (List.mem_of_mem_filter ha) }

end Outcomes

theorem restored_of_getFlow [LawfulCopying σ] (hs : Shelves.Sound s)
    (hget : Store.getFlow workspace id s = .ok f)
    (honce : (Rows.active s).countP (Rows.id · = id) ≤ 1)
    (hfree : ∀ a ∈ ArchiveRows.archived s, ArchiveRows.id a ≠ id)
    (hbetween : ∀ r ∈ between, r.Leaves id) : Restored workspace id f between s := by
  obtain ⟨harchives, hsound, hput⟩ := putAway_whileArchived hs hget honce hfree hbetween
  cases hcopy : copy? σ f with
  | none => exact restored_of_lost hs harchives hsound hput hcopy
  | some g => exact restored_of_copy hs harchives hsound hput hcopy

end Generic

theorem TableStore.Sound.countP_id_le_one {t : TableStore} (h : t.Sound) (id : FlowId) :
    t.active.countP (·.id = id) ≤ 1 := by
  have hcount := List.nodup_iff_count_le_one.mp h.activeKeys id
  rw [List.count, List.countP_map] at hcount
  refine Nat.le_trans (Nat.le_of_eq (List.countP_congr fun r _ ↦ ?_)) hcount
  simp

/-- A flow that can be read, that no other active flow shares its id with and that has no namesake
in the archive. Archiving it succeeds, whatever comes then leaves it withdrawn unless it brings the
id back, and a list restores it as it was. A store of tables restores it as what comes of it when it
is copied twice, so with its revision and everything but open data, and as it was if it reads back
as itself. Requests that are no insertion, archival or restoration change the order of no
listing. -/
theorem restore_undoes_archive (workspace : String) (f : Flow) {id : FlowId}
    {between : List StoreRequest} (hbetween : ∀ r ∈ between, r.Leaves id) :
    (∀ s : ListStore, s.active.countP (·.id = id) ≤ 1 → (∀ g ∈ s.archived, g.id ≠ id) →
      Store.getFlow workspace id s = .ok f →
      Restored workspace id f between s ∧
        (Store.restoreFlow workspace id (whileArchived workspace id between s)).1 = .ok () ∧
        Store.getFlow workspace id (onceRestored workspace id between s) = .ok f) ∧
    (∀ t : TableStore, t.Sound → (∀ r ∈ t.archived, r.id ≠ id) →
      Store.getFlow workspace id t = .ok f →
      Restored workspace id f between t ∧
        (f.reread? = some f →
          (Store.restoreFlow workspace id (whileArchived workspace id between t)).1 = .ok () ∧
          Store.getFlow workspace id (onceRestored workspace id between t) = .ok f)) ∧
    (∀ requests, (Session.after Store.empty requests : TableStore).Sound) ∧
    ∀ r : StoreRequest, r.moved? = none → ∀ asked fs fs',
      (∀ s : ListStore, Store.listFlows asked s = .ok fs →
        Store.listFlows asked (r.perform s).2 = .ok fs' → fs'.map Flow.id = fs.map Flow.id) ∧
      ∀ t : TableStore, t.Sound → Store.listFlows asked t = .ok fs →
        Store.listFlows asked (r.perform t).2 = .ok fs' → fs'.map Flow.id = fs.map Flow.id := by
  refine ⟨fun s honce hfree hget ↦ ?_, fun t hsound hfree hget ↦ ?_,
    Session.after_keeps TableStore.Sound.kept .empty,
    fun r hr asked fs fs' ↦ ⟨fun s ↦ map_id_of_moved?_eq_none (s := s) trivial hr,
      fun t hsound ↦ map_id_of_moved?_eq_none (s := t) hsound hr⟩⟩
  · have hrestored := restored_of_getFlow (s := s) trivial hget honce hfree hbetween
    exact ⟨hrestored, hrestored.of_copy_self rfl⟩
  · have hrestored := restored_of_getFlow (s := t) hsound hget (hsound.countP_id_le_one id) hfree
      hbetween
    exact ⟨hrestored, hrestored.of_copy_self⟩

/-- The draft is published beside another one. -/
def toured (σ : Type) [Store σ] : σ := Session.after Store.empty [
  .store (.insertFlow Desk.draft), .store (.insertFlow { Desk.draft with id := ⟨8⟩ }),
  .store (.saveFlow { Desk.draft with live := true } (some 0))]

/-- Another flow is inserted and archived, and a save of the draft fails. -/
def interlude : List StoreRequest := [
  .insertFlow { Desk.draft with id := ⟨9⟩ }, .saveFlow Desk.draft none, .archiveFlow "w" ⟨9⟩]

theorem restore_undoes_archive_interlude :
    (∀ r ∈ interlude, r.Leaves Desk.draft.id) ∧
    Store.getFlow "w" Desk.draft.id (toured ListStore) = .ok Desk.published ∧
    Store.getFlow "w" Desk.draft.id (toured TableStore) = .ok Desk.published ∧
    Store.getFlow "w" Desk.draft.id (onceRestored "w" Desk.draft.id interlude (toured ListStore)) =
      .ok Desk.published ∧
    Store.getFlow "w" Desk.draft.id
      (onceRestored "w" Desk.draft.id interlude (toured TableStore)) = .ok Desk.published := by
  have hbetween : ∀ r ∈ interlude, r.Leaves Desk.draft.id := by
    simp [interlude, StoreRequest.Leaves, Desk.draft]
  obtain ⟨hlists, htables, hsound, -⟩ := restore_undoes_archive "w" Desk.published hbetween
  have honce : (toured ListStore).active.countP (·.id = Desk.draft.id) ≤ 1 := by decide
  have hfree : ∀ g ∈ (toured ListStore).archived, g.id ≠ Desk.draft.id :=
    fun _ hg ↦ absurd hg List.not_mem_nil
  have hfree' : ∀ r ∈ (toured TableStore).archived, r.id ≠ Desk.draft.id :=
    fun _ hr ↦ absurd hr List.not_mem_nil
  have hget : Store.getFlow "w" Desk.draft.id (toured ListStore) = .ok Desk.published := rfl
  have hget' : Store.getFlow "w" Desk.draft.id (toured TableStore) = .ok Desk.published := rfl
  exact ⟨hbetween, hget, hget', (hlists _ honce hfree hget).2.2,
    ((htables _ (hsound _) hfree' hget').2 rfl).2⟩

/-- Three doubles next to each other, 7.244563226010935e-35 and down. Where the first is written the
second is read, and where the second or third is written the third is read. -/
def drifting : Fin 3 → Decimal.Binary64
  | 0 => ⟨false, 4096044743903010195, by decide⟩
  | 1 => ⟨false, 4096044743903010194, by decide⟩
  | 2 => ⟨false, 4096044743903010193, by decide⟩

/-- The store after a draft with such a number has been inserted. -/
def drifted : TableStore :=
  Session.after Store.empty [.store (.insertFlow (Desk.weighed (drifting 0)))]

/-- The flow is read as one document before it is archived and as another one after it has been
restored. -/
theorem restored_flow_differs :
    drifted.active.countP (·.id = Desk.draft.id) = 1 ∧ drifted.archived = [] ∧
    ¬ ∀ f, Store.getFlow "w" Desk.draft.id drifted = .ok f →
      Store.getFlow "w" Desk.draft.id (onceRestored "w" Desk.draft.id [] drifted) = .ok f := by
  refine ⟨rfl, rfl, fun hidentical ↦ ?_⟩
  have hfirst : copy? TableStore (Desk.weighed (drifting 0)) = some (Desk.weighed (drifting 1)) :=
    Desk.reread?_weighed rfl
  have hnext : copy? TableStore (Desk.weighed (drifting 1)) = some (Desk.weighed (drifting 2)) :=
    Desk.reread?_weighed rfl
  have hlast : copy? TableStore (Desk.weighed (drifting 2)) = some (Desk.weighed (drifting 2)) :=
    Desk.reread?_weighed rfl
  have hget : Store.getFlow "w" Desk.draft.id drifted = .ok (Desk.weighed (drifting 1)) := by
    show FlowRow.read (.ofFlow "w" (Desk.weighed (drifting 0))) = _
    rw [FlowRow.read, FlowRow.ofFlow, Flow.readBack, show Flow.reread? _ = _ from hfirst]
    rfl
  have hsound : drifted.Sound := Session.after_keeps TableStore.Sound.kept .empty _
  have hrestored : Restored "w" Desk.draft.id (Desk.weighed (drifting 1)) [] drifted :=
    restored_of_getFlow hsound hget (hsound.countP_id_le_one _)
      (fun _ h ↦ absurd h List.not_mem_nil) fun _ h ↦ absurd h List.not_mem_nil
  have hcopies := hrestored.identical.mp (hidentical _ hget)
  rw [copies?, hnext, Option.bind_some, copies?_one, hlast] at hcopies
  have hmembers : [("x", Json.double (drifting 2))] = [("x", Json.double (drifting 1))] :=
    congrArg (fun f : Flow ↦ f.opts.trigger.data.members) (Option.some.inj hcopies)
  have hdoubles : drifting 2 = drifting 1 := by simpa using hmembers
  exact absurd hdoubles (by decide)

end GuidedTours
