import GuidedTours.Editor

/-!
Requests to an editor about the flows of one workspace. What a request needs from outside comes
with it: the id and the time of a new flow, the ids of new segments.
-/

set_option autoImplicit false

namespace GuidedTours

inductive EditorRequest where
  | create (input : FlowUpdate) (id : FlowId) (now : Moment)
  | edit (flowId : String) (change : Edit)
  | get (flowId : String)
  | archive (flowId : String)
  | restore (flowId : String)
  | list
  | listArchived
  | dependencyCandidates (flowId : String)
  | rootStep (flowId : String)
  | childStep (parent : String) (segment : Option String) (flowId : String)

inductive EditorAnswer where
  | done
  | flow (flow : Flow)
  | flows (flows : List Flow)
  | summaries (flows : List FlowSummary)
  | step (step : Step)
  | childStep (step : Option Step)

namespace EditorRequest

variable {σ : Type} [Store σ]

def perform (config : EditorConfig) (workspace : String) (s : σ) :
    EditorRequest → Except EditError EditorAnswer × σ
  | .create input id now =>
    let (answer, s) := Editor.create workspace input id now s
    (answer.map .flow, s)
  | .edit flowId change =>
    let (answer, s) := Editor.edit config workspace flowId change s
    (answer.map .flow, s)
  | .get flowId => ((Editor.get workspace flowId s).map .flow, s)
  | .archive flowId =>
    let (answer, s) := Editor.archive workspace flowId s
    (answer.map fun _ ↦ .done, s)
  | .restore flowId =>
    let (answer, s) := Editor.restore workspace flowId s
    (answer.map fun _ ↦ .done, s)
  | .list => ((Editor.list workspace s).map .flows, s)
  | .listArchived => ((Editor.listArchived workspace s).map .flows, s)
  | .dependencyCandidates flowId =>
    ((Editor.dependencyCandidates workspace flowId s).map .summaries, s)
  | .rootStep flowId => ((Editor.rootStep workspace flowId s).map .step, s)
  | .childStep parent segment flowId =>
    ((Editor.childStep workspace flowId parent segment s).map .childStep, s)

end EditorRequest

end GuidedTours
