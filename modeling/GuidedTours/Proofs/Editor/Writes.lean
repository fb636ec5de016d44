import GuidedTours.Proofs.Editor.Revisions
import GuidedTours.Proofs.Sessions
import GuidedTours.Proofs.Store.Writes

/-!
Every write of an editor is one write to the store and nothing else. Of the flow that is returned a
read right afterwards shows the copy that the store makes of it: in a store of lists the flow
itself, in a store of tables what its open data read back as.
-/

set_option autoImplicit false

namespace GuidedTours

open Copying

namespace EditorRequest

variable {σ : Type} [Store σ] [Copying σ] {s s' : σ} {config : EditorConfig} {workspace : String}
variable {r : EditorRequest} {f g : Flow}

/-- A creation or an edit. -/
def isWrite : EditorRequest → Bool
  | .create _ _ _ | .edit _ _ => true
  | _ => false

/-- A new flow stands at the end of its workspace, and any other in the place of the flow that was
loaded, from which it has its identity. -/
def Places (workspace : String) (g : Flow) (s s' : σ) : EditorRequest → Prop
  | .create _ id now =>
    (g.id = id ∧ g.workspace = workspace ∧ g.createdAt = now ∧ g.revision = 0) ∧
    contents s' = { contents s with active := (contents s).active ++ [g] } ∧
    Store.listFlows workspace s' = do
      let flows ← Store.listFlows workspace s
      let shown ← shown σ g
      return flows ++ [shown]
  | .edit flowId _ => ∃ f, Editor.get workspace flowId s = .ok f ∧
    (g.id = f.id ∧ g.workspace = f.workspace ∧ g.createdAt = f.createdAt ∧
      g.revision = f.revision + 1) ∧
    contents s' = { contents s with
      active := modifyFirst (ListStore.owns workspace g.id) (fun _ ↦ g) (contents s).active } ∧
    Store.listFlows workspace s' = do
      let flows ← Store.listFlows workspace s
      let shown ← shown σ g
      return modifyFirst (ListStore.owns workspace g.id) (fun _ ↦ shown) flows
  | _ => False

/-- A request wrote a flow, and nothing else. -/
structure Writes (workspace : String) (r : EditorRequest) (g : Flow) (s s' : σ) : Prop
    extends SameBut workspace g.id s s' where
  get (raw : String) (hraw : parseFlowId raw = .ok g.id) :
    Editor.get workspace raw s' = Editor.fromStore (shown σ g)
  places : r.Places workspace g s s'

theorem get_of_getFlow (h : Store.getFlow workspace g.id s' = shown σ g) {raw : String}
    (hraw : parseFlowId raw = .ok g.id) :
    Editor.get workspace raw s' = Editor.fromStore (shown σ g) := by
  rw [Editor.get, hraw, ok_bind, h]

variable [Shelves σ] [Rows σ] [LawfulRows σ]

theorem writes_create {input : FlowUpdate} {id : FlowId} {now : Moment}
    (h : Editor.create workspace input id now s = (.ok g, s')) :
    (EditorRequest.create input id now).Writes workspace g s s' := by
  rcases Editor.create_cases workspace input id now s with ⟨e, heq⟩ | ⟨f, hf, heq⟩
  · nomatch heq.symm.trans h
  · obtain ⟨hanswer, hstore⟩ := Prod.mk.inj (heq.symm.trans h)
    obtain ⟨_, hinsert, rfl⟩ := map_eq_ok_iff.mp hanswer
    have happends : Appends f s s' :=
      LawfulRows.insertFlow_ok (Prod.ext (mapError_eq_ok_iff.mp hinsert) hstore)
    obtain ⟨rfl, rfl, hcreated, hrevision⟩ := Editor.newFlow_keeps hf
    exact ⟨happends.sameBut, fun raw hraw ↦ get_of_getFlow happends.getFlow hraw,
      ⟨rfl, rfl, hcreated, hrevision⟩, happends.kept, happends.listFlows⟩

theorem writes_edit (hs : Shelves.Sound s) {flowId : String} {change : Edit}
    (h : Editor.edit config workspace flowId change s = (.ok g, s')) :
    (EditorRequest.edit flowId change).Writes workspace g s s' := by
  unfold Editor.edit at h
  cases hget : Editor.get workspace flowId s with
  | error e =>
    rw [hget] at h
    nomatch h
  | ok loaded =>
    rw [hget] at h
    rcases Editor.save_cases config change loaded s with ⟨e, -, heq⟩ | ⟨revised, hrevise, heq⟩
    · nomatch heq.symm.trans h
    · obtain ⟨hanswer, hstore⟩ := Prod.mk.inj (heq.symm.trans h)
      obtain ⟨revision, hsave, rfl⟩ := map_eq_ok_iff.mp hanswer
      have hreplaces : Replaces { revised with revision } s s' :=
        LawfulRows.saveFlow_ok hs (Prod.ext (mapError_eq_ok_iff.mp hsave) hstore)
      obtain ⟨hid, hworkspace, hcreated, -⟩ := Edit.revise_keeps hrevise
      obtain ⟨id, -, hload⟩ := Editor.get_eq_ok_iff.mp hget
      obtain ⟨hloadid, rfl⟩ := LawfulRows.keys_of_getFlow hs hload
      rw [← hworkspace] at hload hget ⊢
      rw [← hloadid, ← hid] at hload
      exact ⟨hreplaces.sameBut, fun raw hraw ↦ get_of_getFlow hreplaces.getFlow hraw,
        loaded, hget, ⟨hid, hworkspace, hcreated, hreplaces.revision hload⟩, hreplaces.kept,
        hreplaces.listFlows hs hload⟩

theorem writes (hs : Shelves.Sound s) (hr : r.isWrite)
    (h : r.perform config workspace s = (.ok (.flow g), s')) : r.Writes workspace g s s' := by
  cases r with
  | create input id now =>
    simp only [perform] at h
    obtain ⟨hanswer, hstore⟩ := Prod.mk.inj h
    obtain ⟨f, hcreate, hf⟩ := map_eq_ok_iff.mp hanswer
    obtain rfl := EditorAnswer.flow.inj hf
    exact writes_create (Prod.ext hcreate hstore)
  | edit flowId change =>
    simp only [perform] at h
    obtain ⟨hanswer, hstore⟩ := Prod.mk.inj h
    obtain ⟨f, hedit, hf⟩ := map_eq_ok_iff.mp hanswer
    obtain rfl := EditorAnswer.flow.inj hf
    exact writes_edit hs (Prod.ext hedit hstore)
  | _ => simp [isWrite] at hr

end EditorRequest

/-- After any session, a successful creation or edit writes the flow that it returns: the flow keeps
its identity and its place, and everything else stays as it was. A read right afterwards shows that
very flow in a store of lists, and in a store of tables exactly if it reads back as itself. -/
theorem writes_are_exact (requests : List Request) (config : EditorConfig) (workspace : String)
    {r : EditorRequest} {g : Flow} (hr : r.isWrite) :
    (∀ s s' : ListStore, s = Session.after Store.empty requests →
      r.perform config workspace s = (.ok (.flow g), s') →
      (∀ raw, parseFlowId raw = .ok g.id → Editor.get workspace raw s' = .ok g) ∧
        r.Writes workspace g s s') ∧
    ∀ s s' : TableStore, s = Session.after Store.empty requests →
      r.perform config workspace s = (.ok (.flow g), s') →
      (∀ raw, parseFlowId raw = .ok g.id →
        (Editor.get workspace raw s' = .ok g ↔ g.reread? = some g)) ∧
        r.Writes workspace g s s' := by
  refine ⟨fun s s' _ h ↦ ?_, fun s s' hs h ↦ ?_⟩
  · have hwrites := EditorRequest.writes (s := s) trivial hr h
    exact ⟨fun raw hraw ↦ hwrites.get raw hraw, hwrites⟩
  · have hsound : s.Sound :=
      hs ▸ Session.after_keeps TableStore.Sound.kept TableStore.Sound.empty requests
    have hwrites := EditorRequest.writes hsound hr h
    refine ⟨fun raw hraw ↦ ?_, hwrites⟩
    have hshown : shown TableStore g = .ok g ↔ g.reread? = some g := by
      show g.reread?.elim _ Except.ok = _ ↔ _
      cases g.reread? <;> simp
    rw [hwrites.get raw hraw, Editor.fromStore, mapError_eq_ok_iff, hshown]

section Examples

open Desk

def drafted : List Request := [
  .editor {} "w" (.create { name := some "Draft", baseUrl := some "/" } draft.id draft.createdAt)]

def publishes : EditorRequest := .edit draft.id.text (.setLive true)

theorem writes_are_exact_publishing :
    publishes.isWrite ∧
    (publishes.perform {} "w" (Session.after (Store.empty : ListStore) drafted)).1 =
      .ok (.flow published) ∧
    Editor.get "w" draft.id.text
      (publishes.perform {} "w" (Session.after (Store.empty : ListStore) drafted)).2 =
        .ok published ∧
    (publishes.perform {} "w" (Session.after (Store.empty : TableStore) drafted)).1 =
      .ok (.flow published) ∧
    Editor.get "w" draft.id.text
      (publishes.perform {} "w" (Session.after (Store.empty : TableStore) drafted)).2 =
        .ok published := by
  obtain ⟨ofLists, ofTables⟩ :=
    writes_are_exact drafted {} "w" (r := publishes) (g := published) rfl
  have hparse : parseFlowId draft.id.text = .ok published.id :=
    parseFlowId_eq_ok_iff.mpr (FlowId.parseEntered?_text draft.id)
  exact ⟨rfl, rfl, (ofLists _ _ rfl rfl).1 _ hparse, rfl,
    ((ofTables _ _ rfl rfl).1 _ hparse).mpr rfl⟩

/-- The draft gets a number that is not read as it is written. -/
def weighs : EditorRequest :=
  .edit draft.id.text (.update { trigger := some { data := .double "x" upper } } fun _ ↦ "")

theorem read_weighedRow {x y : Decimal.Binary64} (h : Json.number? x.render = some (.double y)) :
    (weighedRow x).read = .ok { weighed y with revision := 1 } := by
  rw [weighedRow, FlowRow.read, Flow.readBack, reread?_weighed h]
  rfl

theorem returned_flow_is_not_read_back :
    ¬ ∀ g s', weighs.perform {} "w" (Session.after (Store.empty : TableStore) drafted) =
      (.ok (.flow g), s') → Editor.get "w" draft.id.text s' = .ok g := by
  intro hexact
  have hperform : weighs.perform {} "w" (Session.after (Store.empty : TableStore) drafted) =
      (.ok (.flow { weighed upper with revision := 1 }), { active := [weighedRow upper] }) := rfl
  obtain ⟨id, hparse, hget⟩ := Editor.get_eq_ok_iff.mp (hexact _ _ hperform)
  obtain ⟨row, hfind, hread⟩ := TableStore.getFlow_eq_ok_iff.mp hget
  obtain rfl := List.mem_singleton.mp (List.mem_of_find?_eq_some hfind)
  rw [read_weighedRow (y := lower) rfl] at hread
  have hmembers : [("x", Json.double lower)] = [("x", Json.double upper)] :=
    congrArg (fun f : Flow ↦ f.opts.trigger.data.members) (Except.ok.inj hread)
  have hdoubles : lower = upper := by simpa using hmembers
  exact absurd hdoubles (by decide)

end Examples

end GuidedTours
