import GuidedTours.Editor.Config
import GuidedTours.Editor.Error

/-!
Sparse updates of a flow. A field that is absent leaves the flow as it is, and an empty list of
segments or dependencies is not an absent one. The parts of an update are applied in a fixed order:
name, base address, deletions, replaced and new steps, segments, dependencies, trigger, targeting,
finish effect, visual options. Then the outline is worked out anew.
-/

set_option autoImplicit false

namespace GuidedTours

/-- Visual options. An empty color and an absent template keep the present one; the avatar is
always replaced. -/
structure OptsPatch where
  themeColor : String := ""
  avatarId : Option String := none
  elementTemplate : Option ElementTemplate := none
deriving DecidableEq

structure FlowUpdate where
  name : Option String := none
  baseUrl : Option String := none
  opts : Option OptsPatch := none
  updatedSteps : List Step := []
  deletedSteps : List String := []
  newSteps : List Step := []
  segments : Option (List Segment) := none
  dependsOn : Option (List String) := none
  trigger : Option Trigger := none
  targeting : Option Targeting := none
  finishEffect : Option FinishEffect := none
  /-- The revision that the stored flow must be at. -/
  expectedRevision : Option UInt64 := none

/-- Deletes the steps with the given ids; ids that no step has are passed over. -/
def deleteSteps (policy : DeletePolicy) (steps : List Step) (ids : List String) : List Step :=
  ids.foldl (fun steps id ↦ ((StepTree.delete policy id steps).map Prod.snd).getD steps) steps

def upsertSteps (steps incoming : List Step) : Except StepError (List Step) :=
  incoming.foldlM StepTree.upsert steps

def parseFlowId (raw : String) : Except EditError FlowId :=
  match FlowId.parseEntered? raw with
  | some id => .ok id
  | none => .error (.malformedFlowId raw)

/-- The ids that dependencies of a flow name, each once in the order of first mention. -/
def parseDependencies (flow : FlowId) (raw : List String) : Except EditError (List FlowId) :=
  raw.foldlM (fun ids text ↦
    match parseFlowId text with
    | .error e => .error e
    | .ok id =>
      if id = flow then .error (.selfDependency flow)
      else .ok (if ids.contains id then ids else ids ++ [id])) []

def OptsPatch.apply (p : OptsPatch) (opts : FlowOpts) : FlowOpts :=
  { opts with
    themeColor := if p.themeColor = "" then opts.themeColor else p.themeColor
    avatarId := p.avatarId
    elementTemplate := p.elementTemplate.getD opts.elementTemplate }

namespace FlowUpdate

def steps (u : FlowUpdate) (policy : DeletePolicy) (steps : List Step) :
    Except StepError (List Step) :=
  upsertSteps (deleteSteps policy steps u.deletedSteps) (u.updatedSteps ++ u.newSteps)

def dependencies (u : FlowUpdate) (f : Flow) : Except EditError (List FlowId) :=
  match u.dependsOn with
  | none => .ok f.opts.dependsOn
  | some raw => parseDependencies f.id raw

def options (u : FlowUpdate) (config : EditorConfig) (opts : FlowOpts)
    (dependsOn : List FlowId) : FlowOpts :=
  let opts := { opts with
    dependsOn
    trigger := u.trigger.getD opts.trigger
    targeting := u.targeting.getD opts.targeting
    finishEffect := (u.finishEffect.map (·.complete config.assetBaseUrl)).getD opts.finishEffect
    segmentation := (u.segments.map fun segments ↦ !segments.isEmpty).getD opts.segmentation }
  (u.opts.map (·.apply opts)).getD opts

/-- The flow with all parts of the update, and its outline. Appended segments get the ids
`fresh 0`, `fresh 1` and so on. -/
def apply (u : FlowUpdate) (config : EditorConfig) (fresh : Nat → String) (f : Flow) :
    Except EditError (Outline × Flow) := do
  let steps ← (u.steps config.deletePolicy f.steps).mapError .step
  let dependsOn ← u.dependencies f
  let updated := { f with
    name := u.name.getD f.name
    baseUrl := u.baseUrl.getD f.baseUrl
    steps
    segments := (u.segments.map (Segment.upsert fresh f.segments)).getD f.segments
    opts := u.options config f.opts dependsOn }
  updated.refresh.mapError .tree

end FlowUpdate

end GuidedTours
