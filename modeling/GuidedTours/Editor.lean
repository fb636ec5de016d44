import GuidedTours.Editor.Update

/-!
The editor: flows are created, edited, published, archived and looked up in a store. Every edit of
a stored flow has three parts, a load, a revision of what was loaded, and a save of the whole
document. Between load and save other editors may save the same flow; the save is conditioned on a
revision if the edit names one or the editor is an optimistic one.
-/

set_option autoImplicit false

namespace GuidedTours

/-- An edit of a stored flow. The ids of appended segments are given with it. -/
inductive Edit where
  | update (update : FlowUpdate) (freshSegment : Nat → String)
  | updateStep (id : String) (input : Step)
  | setLive (live : Bool)

namespace Edit

/-- What an edit makes of the loaded flow. -/
def revise (config : EditorConfig) (f : Flow) : Edit → Except EditError Flow
  | .update u fresh => (u.apply config fresh f).map Prod.snd
  | .updateStep id input => do
    let steps ← (StepTree.replace f.steps id input.data input.parent?).mapError .step
    let (_, f) ← ({ f with steps }).refresh.mapError .tree
    return f
  | .setLive live => .ok { f with live }

/-- The revision that the stored flow must be at for the save. -/
def expectedRevision (config : EditorConfig) (loaded : Flow) (e : Edit) : Option UInt64 :=
  let named := match e with
    | .update u _ => u.expectedRevision
    | _ => none
  named.or <| match config.concurrency with
    | .optimistic => some loaded.revision
    | .lastWriterWins => none

end Edit

namespace Editor

variable {σ : Type} [Store σ]

def fromStore {α : Type} (answer : Except StoreError α) : Except EditError α :=
  answer.mapError .store

/-- The load of an edit, and the lookup of a flow. -/
def get (workspace flowId : String) (s : σ) : Except EditError Flow := do
  let id ← parseFlowId flowId
  fromStore (Store.getFlow workspace id s)

/-- The save of an edit, with the flow as it was loaded. -/
def save (config : EditorConfig) (edit : Edit) (loaded : Flow) (s : σ) :
    Except EditError Flow × σ :=
  match edit.revise config loaded with
  | .error e => (.error e, s)
  | .ok revised =>
    let (answer, s) := Store.saveFlow revised (edit.expectedRevision config loaded) s
    ((fromStore answer).map fun revision ↦ { revised with revision }, s)

def edit (config : EditorConfig) (workspace flowId : String) (edit : Edit) (s : σ) :
    Except EditError Flow × σ :=
  match get workspace flowId s with
  | .error e => (.error e, s)
  | .ok loaded => save config edit loaded s

/-- A flow made of the name, the base address and the new steps of an update. -/
def newFlow (workspace : String) (input : FlowUpdate) (id : FlowId) (now : Moment) :
    Except EditError Flow := do
  let name ← input.name.elim (.error (.missingField .name)) .ok
  let baseUrl ← input.baseUrl.elim (.error (.missingField .baseUrl)) .ok
  let flow : Flow :=
    { id, workspace, name, baseUrl, steps := input.newSteps, createdAt := now }
  let (_, flow) ← flow.refresh.mapError .tree
  return flow

def create (workspace : String) (input : FlowUpdate) (id : FlowId) (now : Moment) (s : σ) :
    Except EditError Flow × σ :=
  match newFlow workspace input id now with
  | .error e => (.error e, s)
  | .ok flow =>
    let (answer, s) := Store.insertFlow flow s
    ((fromStore answer).map fun _ ↦ flow, s)

def list (workspace : String) (s : σ) : Except EditError (List Flow) :=
  fromStore (Store.listFlows workspace s)

def listArchived (workspace : String) (s : σ) : Except EditError (List Flow) :=
  fromStore (Store.listArchivedFlows workspace s)

def archive (workspace flowId : String) (s : σ) : Except EditError Unit × σ :=
  match parseFlowId flowId with
  | .error e => (.error e, s)
  | .ok id =>
    let (answer, s) := Store.archiveFlow workspace id s
    (fromStore answer, s)

def restore (workspace flowId : String) (s : σ) : Except EditError Unit × σ :=
  match parseFlowId flowId with
  | .error e => (.error e, s)
  | .ok id =>
    let (answer, s) := Store.restoreFlow workspace id s
    (fromStore answer, s)

/-- The other flows of the workspace that do not depend on the given one. -/
def dependencyCandidates (workspace flowId : String) (s : σ) :
    Except EditError (List FlowSummary) := do
  let id ← parseFlowId flowId
  let flows ← fromStore (Store.listFlows workspace s)
  return (flows.filter fun f ↦ f.id ≠ id && !f.dependsOn id).map Flow.summary

def rootStep (workspace flowId : String) (s : σ) : Except EditError Step := do
  let flow ← get workspace flowId s
  (StepTree.root flow.steps).mapError .tree

def childStep (workspace flowId parent : String) (segment : Option String) (s : σ) :
    Except EditError (Option Step) := do
  let flow ← get workspace flowId s
  return StepTree.firstChild flow.steps parent segment

end Editor

end GuidedTours
