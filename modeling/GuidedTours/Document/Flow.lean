import GuidedTours.Document.Step
import GuidedTours.Flow
import GuidedTours.Moment.Text

/-!
Flows and their parts as documents.
-/

set_option autoImplicit false

namespace GuidedTours

open Json

namespace FlowId

def toJson (id : FlowId) : Json := .text id.text

def ofJson? (v : Json) : Option FlowId := v.text?.bind parse?

end FlowId

namespace Moment

def toJson (m : Moment) : Json := .text m.text

def ofJson? (v : Json) : Option Moment := v.text?.bind parse?

end Moment

namespace Segment

def toJson (s : Segment) : Json :=
  .object [("segment_id", .text s.id), ("name", .text s.name), ("icon_url", .text s.iconUrl)]

def ofJson? (v : Json) : Option Segment := do
  let r ← v.record? ["segment_id", "name", "icon_url"]
  return {
    id := ← r.defaulting "segment_id" "" text?
    name := ← r.required "name" text?
    iconUrl := ← r.defaulting "icon_url" "" text? }

end Segment

namespace TriggerKind

def name : TriggerKind → String
  | .automatic => "automatic"
  | .pageVisit => "page_visit"
  | .elementClick => "element_click"

def toJson (k : TriggerKind) : Json := .text k.name

def ofJson? : Json → Option TriggerKind :=
  name? [("automatic", .automatic), ("page_visit", .pageVisit), ("element_click", .elementClick)]

end TriggerKind

namespace Trigger

def toJson (t : Trigger) : Json :=
  .object [("trigger_id", .text t.id), ("type", t.kind.toJson), ("data", t.data.toJson)]

def ofJson? (v : Json) : Option Trigger := do
  let r ← v.record? ["trigger_id", "type", "data"]
  return {
    id := ← r.defaulting "trigger_id" "" text?
    kind := ← r.defaulting "type" .automatic TriggerKind.ofJson?
    data := ← r.defaulting "data" .empty OpenData.ofJson? }

end Trigger

namespace FinishEffectKind

def name : FinishEffectKind → String
  | .none => "none"
  | .fullScreenAnimation => "full_screen_animation"

def toJson (k : FinishEffectKind) : Json := .text k.name

def ofJson? : Json → Option FinishEffectKind :=
  name? [("none", .none), ("full_screen_animation", .fullScreenAnimation)]

end FinishEffectKind

namespace FinishEffect

def toJson (e : FinishEffect) : Json :=
  .object [("type", e.kind.toJson), ("data", e.data.toJson)]

def ofJson? (v : Json) : Option FinishEffect := do
  let r ← v.record? ["type", "data"]
  return {
    kind := ← r.defaulting "type" .none FinishEffectKind.ofJson?
    data := ← r.defaulting "data" .empty OpenData.ofJson? }

end FinishEffect

namespace TargetingRule

def condition : TargetingRule → String
  | .elapsedDays _ => "elapsed_days_since_registration"
  | .registeredAfter _ => "registered_after"
  | .userSegment _ => "user_segment"
  | .userId _ => "user_id"

def value : TargetingRule → Json
  | .elapsedDays days => ofInt64 days
  | .registeredAfter second => ofInt64 second
  | .userSegment name => .text name
  | .userId id => .text id

def toJson (t : TargetingRule) : Json :=
  .object [("condition", .text t.condition), ("value", t.value)]

/-- Reads the value of a rule with a given condition. -/
def ofValue? (condition : String) (v : Json) : Option TargetingRule :=
  if condition = "elapsed_days_since_registration" then v.int64?.map .elapsedDays
  else if condition = "registered_after" then v.int64?.map .registeredAfter
  else if condition = "user_segment" then v.text?.map .userSegment
  else if condition = "user_id" then v.text?.map .userId
  else none

/-- The condition of a rule written as an object, which may be spelled `{"name": null}` too. -/
def condition? : Json → Option String
  | .text s => some s
  | .object [(s, .null)] => some s
  | _ => none

/-- Reads a rule. In a list the condition is a plain text. -/
def ofJson? (v : Json) : Option TargetingRule := do
  let r ← v.record? ["condition", "value"]
  let condition ← r.required "condition" (if r.positional then text? else condition?)
  r.required "value" (ofValue? condition)

end TargetingRule

namespace Targeting

def toJson (t : Targeting) : Json :=
  .object [("targeting_id", .text t.id), ("rules", Json.ofList TargetingRule.toJson t.rules)]

def ofJson? (v : Json) : Option Targeting := do
  let r ← v.record? ["targeting_id", "rules"]
  return {
    id := ← r.defaulting "targeting_id" "" text?
    rules := ← r.defaulting "rules" [] (list? TargetingRule.ofJson?) }

end Targeting

namespace FlowOpts

def toJson (o : FlowOpts) : Json :=
  .object ([("segmentation", .bool o.segmentation), ("theme_color", .text o.themeColor)] ++
    memberIfSome "avatar_id" .text o.avatarId ++
    [("element_template", o.elementTemplate.toJson), ("trigger", o.trigger.toJson),
      ("targeting", o.targeting.toJson), ("depends_on", Json.ofList FlowId.toJson o.dependsOn),
      ("finish_effect", o.finishEffect.toJson)])

def ofJson? (v : Json) : Option FlowOpts := do
  let r ← v.record? ["segmentation", "theme_color", "avatar_id", "element_template", "trigger",
    "targeting", "depends_on", "finish_effect"]
  let defaults : FlowOpts := {}
  return {
    segmentation := ← r.defaulting "segmentation" defaults.segmentation bool?
    themeColor := ← r.defaulting "theme_color" defaults.themeColor text?
    avatarId := ← r.optionalMember "avatar_id" text?
    elementTemplate :=
      ← r.defaulting "element_template" defaults.elementTemplate ElementTemplate.ofJson?
    trigger := ← r.defaulting "trigger" defaults.trigger Trigger.ofJson?
    targeting := ← r.defaulting "targeting" defaults.targeting Targeting.ofJson?
    dependsOn := ← r.defaulting "depends_on" defaults.dependsOn (list? FlowId.ofJson?)
    finishEffect := ← r.defaulting "finish_effect" defaults.finishEffect FinishEffect.ofJson? }

end FlowOpts

namespace Flow

def toJson (f : Flow) : Json :=
  .object [("id", f.id.toJson), ("workspace_id", .text f.workspace), ("name", .text f.name),
    ("base_url", .text f.baseUrl), ("segments", Json.ofList Segment.toJson f.segments),
    ("steps", Json.ofList Step.toJson f.steps),
    ("relations", Json.ofList Relation.toJson f.relations), ("opts", f.opts.toJson),
    ("live", .bool f.live), ("revision", ofUInt64 f.revision),
    ("created_at", f.createdAt.toJson)]

def ofJson? (v : Json) : Option Flow := do
  let r ← v.record? ["id", "workspace_id", "name", "base_url", "segments", "steps", "relations",
    "opts", "live", "revision", "created_at"]
  return {
    id := ← r.required "id" FlowId.ofJson?
    workspace := ← r.required "workspace_id" text?
    name := ← r.required "name" text?
    baseUrl := ← r.defaulting "base_url" "" text?
    segments := ← r.defaulting "segments" [] (list? Segment.ofJson?)
    steps := ← r.defaulting "steps" [] (list? Step.ofJson?)
    relations := ← r.defaulting "relations" [] (list? Relation.ofJson?)
    opts := ← r.defaulting "opts" {} FlowOpts.ofJson?
    live := ← r.defaulting "live" false bool?
    revision := ← r.defaulting "revision" 0 uint64?
    createdAt := ← r.required "created_at" Moment.ofJson? }

end Flow

namespace FlowSummary

def toJson (s : FlowSummary) : Json :=
  .object [("id", s.id.toJson), ("name", .text s.name), ("live", .bool s.live)]

def ofJson? (v : Json) : Option FlowSummary := do
  let r ← v.record? ["id", "name", "live"]
  return {
    id := ← r.required "id" FlowId.ofJson?
    name := ← r.required "name" text?
    live := ← r.required "live" bool? }

end FlowSummary

end GuidedTours
