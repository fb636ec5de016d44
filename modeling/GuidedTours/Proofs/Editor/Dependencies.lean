import GuidedTours.Proofs.Editor.SparseUpdates
import GuidedTours.Proofs.Isolation
import GuidedTours.Proofs.Store.Ids

/-!
What comes of picking the dependencies of a flow from its candidates. The candidates are the active
flows of the workspace that do not depend on the flow, so a pick is the first of two flows to depend
on the other. Archived flows are no candidates, but they keep their dependencies and come back with
them, so the claim is about all flows that are stored. It is kept by every request: a new flow has
no dependencies, a move changes none, and an update whose picks are candidates entangles nothing. A
candidate is told by its id, for which the ids of all stored flows have to be distinct.
-/

set_option autoImplicit false

namespace GuidedTours

variable {flows others : List Flow} {f g loaded : Flow} {config : EditorConfig}

/-- No flow waits for itself, and no two flows wait for each other. -/
structure Unentangled (flows : List Flow) : Prop where
  notItself : ∀ f ∈ flows, f.id ∉ f.opts.dependsOn
  notEachOther : ∀ f ∈ flows, ∀ g ∈ flows, g.id ∈ f.opts.dependsOn → f.id ∉ g.opts.dependsOn

theorem Flow.links_of_core (h : f.core = g.core) :
    f.id = g.id ∧ f.opts.dependsOn = g.opts.dependsOn :=
  ⟨(Flow.repeated_of_core h).1, show f.core.opts.dependsOn = g.core.opts.dependsOn by rw [h]⟩

/-- A flow whose core is among those of others has the links of one of them. -/
theorem exists_links_of_core (h : f.core ∈ others.map Flow.core) :
    ∃ g ∈ others, g.id = f.id ∧ g.opts.dependsOn = f.opts.dependsOn := by
  obtain ⟨g, hg, hcore⟩ := List.mem_map.mp h
  exact ⟨g, hg, Flow.links_of_core hcore⟩

namespace Unentangled

theorem empty : Unentangled [] :=
  ⟨fun _ h ↦ absurd h List.not_mem_nil, fun _ h ↦ absurd h List.not_mem_nil⟩

theorem of_cores (h : Unentangled others)
    (hcores : flows.map Flow.core ⊆ others.map Flow.core) : Unentangled flows := by
  have hcounterpart (f : Flow) (hf : f ∈ flows) :
      ∃ g ∈ others, g.id = f.id ∧ g.opts.dependsOn = f.opts.dependsOn :=
    exists_links_of_core (hcores (List.mem_map_of_mem hf))
  constructor
  · intro f hf
    obtain ⟨f', hf', hid, hdependsOn⟩ := hcounterpart f hf
    rw [← hid, ← hdependsOn]
    exact h.notItself f' hf'
  · intro f hf g hg
    obtain ⟨f', hf', hfid, hfdependsOn⟩ := hcounterpart f hf
    obtain ⟨g', hg', hgid, hgdependsOn⟩ := hcounterpart g hg
    rw [← hfid, ← hfdependsOn, ← hgid, ← hgdependsOn]
    exact h.notEachOther f' hf' g' hg'

theorem cons (h : Unentangled flows) (hself : f.id ∉ f.opts.dependsOn)
    (hnew : ∀ g ∈ flows, g.id ∈ f.opts.dependsOn → f.id ∉ g.opts.dependsOn) :
    Unentangled (f :: flows) := by
  refine ⟨List.forall_mem_cons.mpr ⟨hself, h.notItself⟩, List.forall_mem_cons.mpr ⟨?_, ?_⟩⟩
  · exact List.forall_mem_cons.mpr ⟨fun _ ↦ hself, hnew⟩
  · intro g hg
    exact List.forall_mem_cons.mpr ⟨fun hwaits hdepends ↦ hnew g hg hdepends hwaits,
      h.notEachOther g hg⟩

/-- Another version of a flow with the same links entangles nothing. -/
theorem cons_of_links (h : Unentangled flows) (hloaded : loaded.core ∈ flows.map Flow.core)
    (hid : f.id = loaded.id) (hdependsOn : f.opts.dependsOn = loaded.opts.dependsOn) :
    Unentangled (f :: flows) := by
  obtain ⟨stored, hstored, hsid, hsdependsOn⟩ := exists_links_of_core hloaded
  have hself := h.notItself stored hstored
  have hothers := h.notEachOther stored hstored
  rw [hsid, ← hid, hsdependsOn, ← hdependsOn] at hself hothers
  exact h.cons hself hothers

end Unentangled

/-! ### Candidates -/

/-- The candidates of a flow, given the listing of its workspace. -/
structure Candidates (id : FlowId) (listed : List Flow) (candidates : List FlowSummary) : Prop where
  order : candidates.Sublist (listed.map Flow.summary)
  once : (candidates.map FlowSummary.id).Nodup
  mem_iff : ∀ f ∈ listed, f.summary ∈ candidates ↔ f.id ≠ id ∧ id ∉ f.opts.dependsOn

section Store

variable {σ : Type} [Store σ] {s : σ} {workspace flowId : String} {id : FlowId}

namespace Editor

theorem dependencyCandidates_eq_ok_iff {candidates : List FlowSummary} :
    dependencyCandidates workspace flowId s = .ok candidates ↔
      ∃ id listed, FlowId.parseEntered? flowId = some id ∧
        Store.listFlows workspace s = .ok listed ∧
        candidates =
          (listed.filter fun f ↦ f.id ≠ id && !f.dependsOn id).map Flow.summary := by
  unfold dependencyCandidates
  simp only [bind_eq_ok_iff, parseFlowId_eq_ok_iff, fromStore, mapError_eq_ok_iff]
  constructor
  · rintro ⟨id, hid, listed, hlisted, h⟩
    exact ⟨id, listed, hid, hlisted, (Except.ok.inj h).symm⟩
  · rintro ⟨id, listed, hid, hlisted, rfl⟩
    exact ⟨id, hid, listed, hlisted, rfl⟩

theorem exists_of_mem_candidates {candidates : List FlowSummary} {other : FlowId}
    (hid : FlowId.parseEntered? flowId = some id)
    (h : dependencyCandidates workspace flowId s = .ok candidates)
    (hother : other ∈ candidates.map FlowSummary.id) :
    ∃ listed, Store.listFlows workspace s = .ok listed ∧
      ∃ f ∈ listed, f.id = other ∧ id ∉ f.opts.dependsOn := by
  obtain ⟨id', listed, hid', hlisted, rfl⟩ := dependencyCandidates_eq_ok_iff.mp h
  obtain rfl := Option.some.inj (hid.symm.trans hid')
  obtain ⟨candidate, hcandidate, rfl⟩ := List.mem_map.mp hother
  obtain ⟨f, hf, rfl⟩ := List.mem_map.mp hcandidate
  obtain ⟨hf, hfree⟩ := List.mem_filter.mp hf
  refine ⟨listed, hlisted, f, hf, rfl, ?_⟩
  simpa [Flow.dependsOn] using (Bool.and_eq_true_iff.mp hfree).2

end Editor

theorem candidates_of_nodup {listed : List Flow} (hids : (listed.map Flow.id).Nodup)
    (id : FlowId) : Candidates id listed
      ((listed.filter fun f ↦ f.id ≠ id && !f.dependsOn id).map Flow.summary) where
  order := List.filter_sublist.map _
  once := by
    rw [List.map_map]
    exact hids.sublist (List.filter_sublist.map _)
  mem_iff f hf := by
    have hpicked : f ∈ listed.filter (fun f ↦ f.id ≠ id && !f.dependsOn id) ↔
        f.id ≠ id ∧ id ∉ f.opts.dependsOn := by
      simp [List.mem_filter, hf, Flow.dependsOn]
    rw [← hpicked]
    constructor
    · intro h
      obtain ⟨g, hg, hsummary⟩ := List.mem_map.mp h
      have hid : g.id = f.id := congrArg FlowSummary.id hsummary
      rwa [← List.inj_on_of_nodup_map hids (List.mem_of_mem_filter hg) hf hid]
    · exact List.mem_map_of_mem

/-- How an edit sets the dependencies of a flow, if it does. -/
theorem Edit.revise_links {e : Edit} (h : e.revise config loaded = .ok f) : f.id = loaded.id ∧
    (f.opts.dependsOn = loaded.opts.dependsOn ∨
      ∃ u fresh raw, ∃ named : List FlowId, e = .update u fresh ∧ u.dependsOn = some raw ∧
        raw.map FlowId.parseEntered? = named.map some ∧ loaded.id ∉ named ∧
        f.opts.dependsOn = named.eraseDups) := by
  rcases revise_cases h with ⟨live, -, rfl⟩ | ⟨u, fresh, found, rfl, happly⟩ |
    ⟨id, input, steps, found, -, -, hrefresh⟩
  · exact ⟨rfl, .inl rfl⟩
  · have htouches := FlowUpdate.touches_of_apply happly
    refine ⟨htouches.id, ?_⟩
    cases hraw : u.dependsOn with
    | none => exact .inl (htouches.keepsDependencies hraw)
    | some raw =>
      obtain ⟨named, hnamed, hself, hdependsOn⟩ := htouches.setsDependencies raw hraw
      exact .inr ⟨u, fresh, raw, named, rfl, hraw, hnamed, hself, hdependsOn⟩
  · obtain ⟨marked, -, rfl⟩ := Flow.refresh_eq_ok_iff.mp hrefresh
    exact ⟨rfl, .inl rfl⟩

theorem Editor.dependsOn_of_newFlow {input : FlowUpdate} {now : Moment}
    (h : newFlow workspace input id now = .ok f) : f.opts.dependsOn = [] := by
  obtain ⟨name, baseUrl, found, -, -, hrefresh⟩ := newFlow_cases h
  obtain ⟨marked, -, rfl⟩ := Flow.refresh_eq_ok_iff.mp hrefresh
  rfl

variable [Holdings σ]

/-- Every dependency that the request names is a candidate at that moment. -/
def EditorRequest.Picks (workspace : String) (s : σ) : EditorRequest → Prop
  | .edit flowId (.update u _) => ∀ raw, u.dependsOn = some raw → ∀ text ∈ raw, ∀ id,
      FlowId.parseEntered? text = some id →
        ∃ candidates, Editor.dependencyCandidates workspace flowId s = .ok candidates ∧
          id ∈ candidates.map FlowSummary.id
  | _ => True

omit [Holdings σ] in
/-- Ids of candidates may be written out. -/
theorem EditorRequest.picks_of_texts {u : FlowUpdate} {fresh : Nat → String}
    {candidates : List FlowSummary} (named : List FlowId)
    (hraw : u.dependsOn = some (named.map FlowId.text))
    (hcandidates : Editor.dependencyCandidates workspace flowId s = .ok candidates)
    (hnamed : named ⊆ candidates.map FlowSummary.id) :
    (EditorRequest.edit flowId (.update u fresh)).Picks workspace s := by
  intro raw h text htext id hid
  obtain rfl := Option.some.inj (hraw.symm.trans h)
  obtain ⟨other, hother, rfl⟩ := List.mem_map.mp htext
  obtain rfl := Option.some.inj ((FlowId.parseEntered?_text other).symm.trans hid)
  exact ⟨candidates, hcandidates, hnamed hother⟩

/-- The request goes to an editor or to the enrollment, gives a new flow an id that no stored flow
has, and picks dependencies from the candidates. -/
def Request.Careful (s : σ) : Request → Prop
  | .store _ => False
  | .editor _ workspace request =>
    (∀ id, request.created? = some id → ∀ f ∈ Holdings.flows s, f.id ≠ id) ∧
      request.Picks workspace s
  | .enrollment _ _ => True

end Store

/-! ### One request -/

section Steps

variable {σ : Type} [Store σ] [Holdings σ] [Shelves σ] [Rows σ] [ArchiveRows σ]
variable {s : σ} {workspace flowId : String} {id : FlowId} {listed : List Flow}

/-- What careful requests keep. -/
structure Tidy (s : σ) : Prop where
  sound : Shelves.Sound s
  distinct : (rowIds s).Nodup
  unentangled : Unentangled (Holdings.flows s)

namespace Tidy

theorem nodup_active (h : Tidy s) : ((Rows.active s).map Rows.id).Nodup :=
  (List.nodup_append.mp h.distinct).1

section Writes

variable [Copying σ] [LawfulMoves σ]

theorem saveFlow (h : Tidy s) (expected : Option UInt64)
    (hf : Unentangled (f :: Holdings.flows s)) : Tidy (Store.saveFlow f expected s).2 where
  sound := Shelves.sound_kept.saveFlow f expected s h.sound
  distinct := by
    rw [rowIds_saveFlow]
    exact h.distinct
  unentangled := hf.of_cores (Holdings.saveFlow_subset f expected s)

theorem archiveFlow [LawfulRows σ] (h : Tidy s) (workspace : String) (id : FlowId) :
    Tidy (Store.archiveFlow workspace id s).2 where
  sound := Shelves.sound_kept.archiveFlow workspace id s h.sound
  distinct := (rowIds_archiveFlow h.sound workspace id).nodup_iff.mpr h.distinct
  unentangled := h.unentangled.of_cores (Holdings.archiveFlow_subset workspace id s)

theorem restoreFlow (h : Tidy s) (workspace : String) (id : FlowId) :
    Tidy (Store.restoreFlow workspace id s).2 where
  sound := Shelves.sound_kept.restoreFlow workspace id s h.sound
  distinct := (rowIds_restoreFlow h.sound workspace id).nodup_iff.mpr h.distinct
  unentangled := h.unentangled.of_cores (Holdings.restoreFlow_subset workspace id s)

end Writes

variable [RowFlows σ]

theorem nodup_flows (h : Tidy s) : ((Holdings.flows s).map Flow.id).Nodup := by
  rw [RowFlows.map_id_flows h.sound]
  exact h.distinct

theorem empty : Tidy (Store.empty : σ) where
  sound := Shelves.sound_empty
  distinct := by
    rw [← RowFlows.map_id_flows Shelves.sound_empty, Holdings.flows_empty]
    exact List.nodup_nil
  unentangled := by
    rw [Holdings.flows_empty]
    exact Unentangled.empty

section Writes

variable [Copying σ] [LawfulMoves σ]

theorem insertFlow (h : Tidy s) (hnew : ∀ g ∈ Holdings.flows s, g.id ≠ f.id)
    (hnone : f.opts.dependsOn = []) : Tidy (Store.insertFlow f s).2 where
  sound := Shelves.sound_kept.insertFlow f s h.sound
  distinct := by
    rcases rowIds_insertFlow f s with heq | hperm
    · rw [heq]
      exact h.distinct
    · refine hperm.nodup_iff.mpr (List.nodup_cons.mpr ⟨fun hmem ↦ ?_, h.distinct⟩)
      rw [← RowFlows.map_id_flows h.sound] at hmem
      obtain ⟨g, hg, hid⟩ := List.mem_map.mp hmem
      exact hnew g hg hid
  unentangled := by
    have hcons : Unentangled (f :: Holdings.flows s) :=
      h.unentangled.cons (by simp [hnone]) (by simp [hnone])
    rcases Holdings.insertFlow_cases f s with heq | ⟨-, hcores⟩
    · rw [heq]
      exact h.unentangled
    · exact hcons.of_cores hcores

theorem putUserState (h : Tidy s) (state : UserState) : Tidy (Store.putUserState state s) where
  sound := Shelves.sound_kept.putUserState state s h.sound
  distinct := by
    rw [rowIds_putUserState]
    exact h.distinct
  unentangled := by
    rw [RowFlows.flows_putUserState]
    exact h.unentangled

theorem recordEvents (h : Tidy s) (events : List TrackedEvent) :
    Tidy (Store.recordEvents events s) where
  sound := Shelves.sound_kept.recordEvents events s h.sound
  distinct := by
    rw [rowIds_recordEvents]
    exact h.distinct
  unentangled := by
    rw [RowFlows.flows_recordEvents]
    exact h.unentangled

end Writes

variable [Copying σ] [LawfulRows σ]

omit [RowFlows σ] in
theorem nodup_listed (h : Tidy s) (hlisted : Store.listFlows workspace s = .ok listed) :
    (listed.map Flow.id).Nodup := by
  rw [map_id_of_listFlows h.sound hlisted, listing_eq_map]
  exact h.nodup_active.sublist (List.filter_sublist.map _)

/-- The dependencies of a stored flow are those of the one that is listed with its id. -/
theorem dependsOn_of_listed (h : Tidy s) (hlisted : Store.listFlows workspace s = .ok listed)
    (hf : f ∈ listed) (hg : g ∈ Holdings.flows s) (hid : f.id = g.id) :
    g.opts.dependsOn = f.opts.dependsOn := by
  rw [LawfulRows.listFlows_eq] at hlisted
  obtain ⟨r, hr, hread⟩ := mem_of_mapM_eq_ok hlisted hf
  have hget := LawfulRows.getFlow_of_read h.sound h.nodup_active (List.mem_of_mem_filter hr) hread
  obtain ⟨stored, hstored, hsid, hdependsOn⟩ := exists_links_of_core (Holdings.getFlow_mem hget)
  rw [← hdependsOn, List.inj_on_of_nodup_map h.nodup_flows hstored hg (hsid.trans hid)]

/-- A flow that waits for candidates alone entangles nothing. -/
theorem unentangled_revise {change : Edit} (h : Tidy s)
    (hget : Editor.get workspace flowId s = .ok loaded)
    (hrevise : change.revise config loaded = .ok f)
    (hpicks : (EditorRequest.edit flowId change).Picks workspace s) :
    Unentangled (f :: Holdings.flows s) := by
  obtain ⟨id, hparse, hstored⟩ := Editor.get_eq_ok_iff.mp hget
  have hid : loaded.id = id := (LawfulRows.keys_of_getFlow h.sound hstored).1
  obtain ⟨hfid, hdependsOn | ⟨u, fresh, raw, named, rfl, hraw, hnamed, hself, hdependsOn⟩⟩ :=
    Edit.revise_links hrevise
  · exact h.unentangled.cons_of_links (Holdings.getFlow_mem hstored) hfid hdependsOn
  · refine h.unentangled.cons ?_ fun g hg hdepends ↦ ?_
    · rw [hfid, hdependsOn, List.mem_eraseDups]
      exact hself
    · rw [hdependsOn, List.mem_eraseDups] at hdepends
      have hmem : some g.id ∈ raw.map FlowId.parseEntered? := by
        rw [hnamed]
        exact List.mem_map_of_mem hdepends
      obtain ⟨text, htext, hparsed⟩ := List.mem_map.mp hmem
      obtain ⟨candidates, hcandidates, hcandidate⟩ := hpicks raw hraw text htext g.id hparsed
      obtain ⟨listed, hlisted, x, hx, hxid, hfree⟩ :=
        Editor.exists_of_mem_candidates (parseFlowId_eq_ok_iff.mp hparse) hcandidates hcandidate
      rw [hfid, hid, h.dependsOn_of_listed hlisted hx hg hxid]
      exact hfree

variable [LawfulMoves σ]

theorem editor (h : Tidy s) {request : EditorRequest}
    (hfresh : ∀ id, request.created? = some id → ∀ f ∈ Holdings.flows s, f.id ≠ id)
    (hpicks : request.Picks workspace s) : Tidy (request.perform config workspace s).2 := by
  cases request with
  | create input id now =>
    simp only [EditorRequest.perform]
    rcases Editor.create_cases workspace input id now s with ⟨e, heq⟩ | ⟨f, hf, heq⟩
    · rw [heq]
      exact h
    · rw [heq]
      have hid : f.id = id := (Editor.newFlow_keeps hf).1
      exact h.insertFlow (hid ▸ hfresh id rfl) (Editor.dependsOn_of_newFlow hf)
  | edit flowId change =>
    simp only [EditorRequest.perform, Editor.edit]
    cases hget : Editor.get workspace flowId s with
    | error e => exact h
    | ok loaded =>
      rcases Editor.save_cases config change loaded s with ⟨e, -, heq⟩ | ⟨f, hrevise, heq⟩
      · simp only [heq]
        exact h
      · simp only [heq]
        exact h.saveFlow _ (h.unentangled_revise hget hrevise hpicks)
  | archive flowId =>
    simp only [EditorRequest.perform]
    rcases Editor.archive_cases workspace flowId s with ⟨e, heq⟩ | ⟨id, -, heq⟩
    · rw [heq]
      exact h
    · rw [heq]
      exact h.archiveFlow workspace id
  | restore flowId =>
    simp only [EditorRequest.perform]
    rcases Editor.restore_cases workspace flowId s with ⟨e, heq⟩ | ⟨id, -, heq⟩
    · rw [heq]
      exact h
    · rw [heq]
      exact h.restoreFlow workspace id
  | get _ | list | listArchived | dependencyCandidates _ | rootStep _ | childStep _ _ _ => exact h

theorem perform (h : Tidy s) {r : Request} (hr : r.Careful s) : Tidy (r.perform s).2 := by
  cases r with
  | store request => exact absurd hr not_false
  | editor config workspace request =>
    show Tidy (request.perform config workspace s).2
    exact h.editor hr.1 hr.2
  | enrollment workspace request =>
    show Tidy (request.perform workspace s).2
    rcases request.perform_cases workspace s with heq | ⟨state, heq⟩ | ⟨user, events, rfl⟩
    · rw [heq]
      exact h
    · rw [heq]
      exact h.putUserState state
    · simp only [EnrollmentRequest.perform]
      rcases Enrollment.trackEvents_cases workspace user events s with heq | ⟨tracked, heq⟩
      · rw [heq]
        exact h
      · rw [heq]
        exact h.recordEvents tracked

end Tidy

/-! ### Sessions -/

/-- Nothing is entangled, and who picks is offered the right flows. -/
structure PicksSafely (s : σ) : Prop where
  unentangled : Unentangled (Holdings.flows s)
  offers (workspace flowId : String) (id : FlowId) (hid : FlowId.parseEntered? flowId = some id)
    (listed : List Flow) (hlisted : Store.listFlows workspace s = .ok listed) :
    ∃ candidates, Editor.dependencyCandidates workspace flowId s = .ok candidates ∧
      Candidates id listed candidates
  /-- There are no candidates only where nothing can be listed. A table that holds a flow whose open
  data do not read back, as those in which an object begins with the reserved name, cannot be
  listed, and the error of the store is passed on as it is. -/
  fails (workspace flowId : String) (id : FlowId) (hid : FlowId.parseEntered? flowId = some id)
    (e : StoreError) (hlisted : Store.listFlows workspace s = .error e) :
    Editor.dependencyCandidates workspace flowId s = .error (.store e)

variable [Copying σ] [LawfulRows σ]

theorem Tidy.picksSafely (h : Tidy s) : PicksSafely s where
  unentangled := h.unentangled
  offers workspace flowId id hid listed hlisted :=
    ⟨_, Editor.dependencyCandidates_eq_ok_iff.mpr ⟨id, listed, hid, hlisted, rfl⟩,
      candidates_of_nodup (h.nodup_listed hlisted) id⟩
  fails workspace flowId id hid e hlisted := by
    simp only [Editor.dependencyCandidates, Editor.fromStore,
      parseFlowId_eq_ok_iff.mpr hid, hlisted]
    rfl

theorem picksSafely_after [LawfulMoves σ] [RowFlows σ] {requests : List Request}
    (h : Session.Along Request.Careful (Store.empty : σ) requests) :
    PicksSafely (Session.after (Store.empty : σ) requests) :=
  (Session.after_of_along (fun _ _ hs hr ↦ hs.perform hr) Tidy.empty h).picksSafely

end Steps

/-- Whoever picks dependencies from the candidates never makes two flows wait for each other. -/
theorem picked_dependencies_unentangled (requests : List Request) :
    (Session.Along Request.Careful (Store.empty : ListStore) requests →
      PicksSafely (Session.after (Store.empty : ListStore) requests)) ∧
    (Session.Along Request.Careful (Store.empty : TableStore) requests →
      PicksSafely (Session.after (Store.empty : TableStore) requests)) :=
  ⟨picksSafely_after, picksSafely_after⟩

/-- A second flow comes to wait for the first, which is archived and restored. -/
def waiting : List Request := [
  .editor {} "w" (.create { name := some "Welcome", baseUrl := some "/" } ⟨7⟩ Desk.draft.createdAt),
  .editor {} "w" (.create { name := some "Tour", baseUrl := some "/" } ⟨8⟩ Desk.draft.createdAt),
  .editor {} "w" (.edit (FlowId.text ⟨8⟩)
    (.update { dependsOn := some [FlowId.text ⟨7⟩] } fun _ ↦ "")),
  .editor {} "w" (.archive (FlowId.text ⟨7⟩)),
  .editor {} "w" (.restore (FlowId.text ⟨7⟩))]

theorem careful_waiting {σ : Type} [Store σ] [Holdings σ]
    (hfirst : ∀ f ∈ Holdings.flows (Store.empty : σ), f.id ≠ ⟨7⟩)
    (hsecond : ∀ f ∈ Holdings.flows (Session.after (Store.empty : σ) (waiting.take 1)), f.id ≠ ⟨8⟩)
    (hcandidates : Editor.dependencyCandidates "w" (FlowId.text ⟨8⟩)
      (Session.after (Store.empty : σ) (waiting.take 2)) = .ok [⟨⟨7⟩, "Welcome", false⟩]) :
    Session.Along Request.Careful (Store.empty : σ) waiting :=
  ⟨⟨fun _ hid ↦ Option.some.inj hid ▸ hfirst, trivial⟩,
    ⟨fun _ hid ↦ Option.some.inj hid ▸ hsecond, trivial⟩,
    ⟨nofun, EditorRequest.picks_of_texts [⟨7⟩] rfl hcandidates (by decide)⟩, ⟨nofun, trivial⟩,
    ⟨nofun, trivial⟩, trivial⟩

theorem picked_dependencies_unentangled_waiting :
    Session.Along Request.Careful (Store.empty : ListStore) waiting ∧
    Session.Along Request.Careful (Store.empty : TableStore) waiting ∧
    (Holdings.flows (Session.after (Store.empty : ListStore) waiting)).map
      (fun f ↦ (f.id, f.opts.dependsOn)) = [(⟨8⟩, [⟨7⟩]), (⟨7⟩, [])] ∧
    (Holdings.flows (Session.after (Store.empty : TableStore) waiting)).map
      (fun f ↦ (f.id, f.opts.dependsOn)) = [(⟨8⟩, [⟨7⟩]), (⟨7⟩, [])] ∧
    PicksSafely (Session.after (Store.empty : ListStore) waiting) ∧
    PicksSafely (Session.after (Store.empty : TableStore) waiting) := by
  have hlists : Session.Along Request.Careful (Store.empty : ListStore) waiting :=
    careful_waiting (by decide) (by decide) rfl
  have htables : Session.Along Request.Careful (Store.empty : TableStore) waiting :=
    careful_waiting (by decide) (by decide) rfl
  obtain ⟨ofLists, ofTables⟩ := picked_dependencies_unentangled waiting
  have hlinks : (Holdings.flows (Session.after (Store.empty : ListStore) waiting)).map
      (fun f ↦ (f.id, f.opts.dependsOn)) = [(⟨8⟩, [⟨7⟩]), (⟨7⟩, [])] := by decide +kernel
  have hlinks' : (Holdings.flows (Session.after (Store.empty : TableStore) waiting)).map
      (fun f ↦ (f.id, f.opts.dependsOn)) = [(⟨8⟩, [⟨7⟩]), (⟨7⟩, [])] := by decide +kernel
  exact ⟨hlists, htables, hlinks, hlinks', ofLists hlists, ofTables htables⟩

end GuidedTours
