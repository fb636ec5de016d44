import GuidedTours.Document.Flow
import GuidedTours.Editor.Update
import GuidedTours.Settings

/-!
Flow updates and settings as documents. Of an update only what it names is written, so an absent
list and an empty one differ.
-/

set_option autoImplicit false

namespace GuidedTours

open Json

namespace OptsPatch

def toJson (p : OptsPatch) : Json :=
  .object [("theme_color", .text p.themeColor), ("avatar_id", orNull .text p.avatarId),
    ("element_template", orNull ElementTemplate.toJson p.elementTemplate)]

def ofJson? (v : Json) : Option OptsPatch := do
  let r ← v.record? ["theme_color", "avatar_id", "element_template"]
  return {
    themeColor := ← r.defaulting "theme_color" "" text?
    avatarId := ← r.optional "avatar_id" text?
    elementTemplate := ← r.optional "element_template" ElementTemplate.ofJson? }

end OptsPatch

namespace FlowUpdate

def toJson (u : FlowUpdate) : Json :=
  .object (memberIfSome "name" .text u.name ++
    memberIfSome "base_url" .text u.baseUrl ++
    memberIfSome "opts" OptsPatch.toJson u.opts ++
    memberIfAny "updated_steps" Step.toJson u.updatedSteps ++
    memberIfAny "deleted_steps" .text u.deletedSteps ++
    memberIfAny "new_steps" Step.toJson u.newSteps ++
    memberIfSome "segments" (Json.ofList Segment.toJson) u.segments ++
    memberIfSome "depends_on" (Json.ofList .text) u.dependsOn ++
    memberIfSome "trigger" Trigger.toJson u.trigger ++
    memberIfSome "targeting" Targeting.toJson u.targeting ++
    memberIfSome "finish_effect" FinishEffect.toJson u.finishEffect ++
    memberIfSome "expected_revision" ofUInt64 u.expectedRevision)

def ofJson? (v : Json) : Option FlowUpdate := do
  let r ← v.record? ["name", "base_url", "opts", "updated_steps", "deleted_steps", "new_steps",
    "segments", "depends_on", "trigger", "targeting", "finish_effect", "expected_revision"]
  return {
    name := ← r.optional "name" text?
    baseUrl := ← r.optional "base_url" text?
    opts := ← r.optional "opts" OptsPatch.ofJson?
    updatedSteps := ← r.defaulting "updated_steps" [] (list? Step.ofJson?)
    deletedSteps := ← r.defaulting "deleted_steps" [] (list? text?)
    newSteps := ← r.defaulting "new_steps" [] (list? Step.ofJson?)
    segments := ← r.optional "segments" (list? Segment.ofJson?)
    dependsOn := ← r.optional "depends_on" (list? text?)
    trigger := ← r.optional "trigger" Trigger.ofJson?
    targeting := ← r.optional "targeting" Targeting.ofJson?
    finishEffect := ← r.optional "finish_effect" FinishEffect.ofJson?
    expectedRevision := ← r.optional "expected_revision" uint64? }

end FlowUpdate

namespace DeletePolicy

def name : DeletePolicy → String
  | .reconnectFirst => "reconnect_first"
  | .reconnectAll => "reconnect_all"

def toJson (p : DeletePolicy) : Json := .text p.name

def ofJson? : Json → Option DeletePolicy :=
  name? [("reconnect_first", .reconnectFirst), ("reconnect_all", .reconnectAll)]

end DeletePolicy

namespace Concurrency

def name : Concurrency → String
  | .lastWriterWins => "last_writer_wins"
  | .optimistic => "optimistic"

def toJson (c : Concurrency) : Json := .text c.name

def ofJson? : Json → Option Concurrency :=
  name? [("last_writer_wins", .lastWriterWins), ("optimistic", .optimistic)]

end Concurrency

namespace EditorConfig

def toJson (c : EditorConfig) : Json :=
  .object [("delete_policy", c.deletePolicy.toJson), ("concurrency", c.concurrency.toJson),
    ("asset_base_url", .text c.assetBaseUrl)]

def ofJson? (v : Json) : Option EditorConfig := do
  let r ← v.record? ["delete_policy", "concurrency", "asset_base_url"]
  let defaults : EditorConfig := {}
  return {
    deletePolicy := ← r.defaulting "delete_policy" defaults.deletePolicy DeletePolicy.ofJson?
    concurrency := ← r.defaulting "concurrency" defaults.concurrency Concurrency.ofJson?
    assetBaseUrl := ← r.defaulting "asset_base_url" defaults.assetBaseUrl text? }

end EditorConfig

namespace Settings

def toJson (s : Settings) : Json :=
  .object [("database_url", .text s.databaseUrl), ("max_connections", ofUInt32 s.maxConnections),
    ("editor", s.editor.toJson)]

def ofJson? (v : Json) : Option Settings := do
  let r ← v.record? ["database_url", "max_connections", "editor"]
  return {
    databaseUrl := ← r.required "database_url" text?
    maxConnections := ← r.required "max_connections" uint32?
    editor := ← r.defaulting "editor" {} EditorConfig.ofJson? }

end Settings

end GuidedTours
