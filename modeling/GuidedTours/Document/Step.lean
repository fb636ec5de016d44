import GuidedTours.Json.Record
import GuidedTours.StepTree.Outline

/-!
Steps and relations as documents. What has no value is left out, as is an empty list of blocks.
-/

set_option autoImplicit false

namespace GuidedTours

open Json

namespace ElementType

def name : ElementType → String
  | .tooltip => "tooltip"
  | .popup => "popup"

def toJson (t : ElementType) : Json := .text t.name

def ofJson? : Json → Option ElementType :=
  name? [("tooltip", .tooltip), ("popup", .popup)]

end ElementType

namespace ElementTemplate

def name : ElementTemplate → String
  | .light => "light"
  | .dark => "dark"

def toJson (t : ElementTemplate) : Json := .text t.name

def ofJson? : Json → Option ElementTemplate :=
  name? [("light", .light), ("dark", .dark)]

end ElementTemplate

namespace BlockKind

def name : BlockKind → String
  | .text => "text"
  | .image => "image"
  | .video => "video"
  | .avatar => "avatar"

def toJson (k : BlockKind) : Json := .text k.name

def ofJson? : Json → Option BlockKind :=
  name? [("text", .text), ("image", .image), ("video", .video), ("avatar", .avatar)]

end BlockKind

namespace StepBlock

def toJson (b : StepBlock) : Json :=
  .object [("type", b.kind.toJson), ("data", .text b.data)]

def ofJson? (v : Json) : Option StepBlock := do
  let r ← v.record? ["type", "data"]
  return {
    kind := ← r.required "type" BlockKind.ofJson?
    data := ← r.required "data" text? }

end StepBlock

namespace StepData

def toJson (d : StepData) : Json :=
  .object ([("name", .text d.name), ("description", .text d.description)] ++
    memberIfSome "target_url" .text d.targetUrl ++
    memberIfSome "assigned_css_element" .text d.assignedCssElement ++
    memberIfSome "element_type" ElementType.toJson d.elementType ++
    memberIfSome "placement" .text d.placement ++
    memberIfSome "element_template" ElementTemplate.toJson d.elementTemplate ++
    memberIfAny "blocks" StepBlock.toJson d.blocks)

def ofJson? (v : Json) : Option StepData := do
  let r ← v.record? ["name", "description", "target_url", "assigned_css_element", "element_type",
    "placement", "element_template", "blocks"]
  return {
    name := ← r.defaulting "name" "" text?
    description := ← r.defaulting "description" "" text?
    targetUrl := ← r.optionalMember "target_url" text?
    assignedCssElement := ← r.optionalMember "assigned_css_element" text?
    elementType := ← r.optionalMember "element_type" ElementType.ofJson?
    placement := ← r.optionalMember "placement" text?
    elementTemplate := ← r.optionalMember "element_template" ElementTemplate.ofJson?
    blocks := ← r.defaulting "blocks" [] (list? StepBlock.ofJson?) }

end StepData

namespace StepTransition

def toJson (t : StepTransition) : Json :=
  .object (memberIfSome "in_animation" .text t.inAnimation ++
    memberIfSome "out_animation" .text t.outAnimation ++
    memberIfSome "loop_animation" .text t.loopAnimation)

def ofJson? (v : Json) : Option StepTransition := do
  let r ← v.record? ["in_animation", "out_animation", "loop_animation"]
  return {
    inAnimation := ← r.optionalMember "in_animation" text?
    outAnimation := ← r.optionalMember "out_animation" text?
    loopAnimation := ← r.optionalMember "loop_animation" text? }

end StepTransition

namespace StepOpts

def toJson (o : StepOpts) : Json :=
  .object ([("is_source", .bool o.isSource), ("is_final", .bool o.isFinal)] ++
    memberIfSome "segment_id" .text o.segmentId ++
    [("transition", o.transition.toJson), ("actionable", .bool o.actionable)])

def ofJson? (v : Json) : Option StepOpts := do
  let r ← v.record? ["is_source", "is_final", "segment_id", "transition", "actionable"]
  return {
    isSource := ← r.defaulting "is_source" false bool?
    isFinal := ← r.defaulting "is_final" false bool?
    segmentId := ← r.optionalMember "segment_id" text?
    transition := ← r.defaulting "transition" {} StepTransition.ofJson?
    actionable := ← r.defaulting "actionable" false bool? }

end StepOpts

namespace Step

def toJson (s : Step) : Json :=
  .object ([("step_id", .text s.id)] ++ memberIfSome "parent_step_id" .text s.parentId ++
    [("data", s.data.toJson), ("opts", s.opts.toJson)])

def ofJson? (v : Json) : Option Step := do
  let r ← v.record? ["step_id", "parent_step_id", "data", "opts"]
  return {
    id := ← r.required "step_id" text?
    parentId := ← r.optional "parent_step_id" text?
    data := ← r.defaulting "data" {} StepData.ofJson?
    opts := ← r.defaulting "opts" {} StepOpts.ofJson? }

end Step

namespace Relation

def toJson (r : Relation) : Json :=
  .object [("from", .text r.parent), ("to", .text r.child)]

def ofJson? (v : Json) : Option Relation := do
  let r ← v.record? ["from", "to"]
  return {
    parent := ← r.required "from" text?
    child := ← r.required "to" text? }

end Relation

def Outline.toJson (o : Outline) : Json :=
  .object [("root", orNull .text o.root), ("relations", Json.ofList Relation.toJson o.relations),
    ("unreachable", Json.ofList .text o.unreachable)]

end GuidedTours
