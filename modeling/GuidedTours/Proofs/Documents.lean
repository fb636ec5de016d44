import GuidedTours.Document.Progress
import GuidedTours.Document.Update
import GuidedTours.Proofs.Json.OpenData
import GuidedTours.Proofs.Json.Record
import GuidedTours.Proofs.Moments

/-!
Documents and what is read where they were written. The parts come first: names, ids, moments, then
each record out of the parts it is made of. Only open data may fail to come back, so the documents
that hold open data come last, with a condition on them. The condition is for reading alone: what is
written tells any two documents apart.
-/

set_option autoImplicit false

namespace GuidedTours

open Json

section Names

@[simp] theorem ElementType.ofJson?_toJson (k : ElementType) : ofJson? k.toJson = some k := by
  cases k <;> rfl

instance : Restores ElementType.ofJson? ElementType.toJson :=
  ⟨ElementType.ofJson?_toJson, rfl⟩

@[simp] theorem ElementTemplate.ofJson?_toJson (k : ElementTemplate) :
    ofJson? k.toJson = some k := by
  cases k <;> rfl

instance : Restores ElementTemplate.ofJson? ElementTemplate.toJson :=
  ⟨ElementTemplate.ofJson?_toJson, rfl⟩

@[simp] theorem BlockKind.ofJson?_toJson (k : BlockKind) : ofJson? k.toJson = some k := by
  cases k <;> rfl

@[simp] theorem TriggerKind.ofJson?_toJson (k : TriggerKind) : ofJson? k.toJson = some k := by
  cases k <;> rfl

instance : Restores TriggerKind.ofJson? TriggerKind.toJson :=
  ⟨TriggerKind.ofJson?_toJson, rfl⟩

@[simp] theorem FinishEffectKind.ofJson?_toJson (k : FinishEffectKind) :
    ofJson? k.toJson = some k := by
  cases k <;> rfl

instance : Restores FinishEffectKind.ofJson? FinishEffectKind.toJson :=
  ⟨FinishEffectKind.ofJson?_toJson, rfl⟩

@[simp] theorem EventKind.ofJson?_toJson (k : EventKind) : ofJson? k.toJson = some k := by
  cases k <;> rfl

@[simp] theorem DeletePolicy.ofJson?_toJson (k : DeletePolicy) : ofJson? k.toJson = some k := by
  cases k <;> rfl

@[simp] theorem Concurrency.ofJson?_toJson (k : Concurrency) : ofJson? k.toJson = some k := by
  cases k <;> rfl

@[simp] theorem FlowId.ofJson?_toJson (id : FlowId) : ofJson? id.toJson = some id := by
  rw [toJson, ofJson?, text?_text, Option.bind_some, parse?_text]

instance : Restores FlowId.ofJson? FlowId.toJson :=
  ⟨FlowId.ofJson?_toJson, rfl⟩

@[simp] theorem Moment.ofJson?_toJson (m : Moment) : ofJson? m.toJson = some m := by
  rw [toJson, ofJson?, text?_text, Option.bind_some, parse?_text]

instance : Restores Moment.ofJson? Moment.toJson :=
  ⟨Moment.ofJson?_toJson, rfl⟩

end Names

attribute [local simp] record?_object List.filter_append List.lookup_append lookup_cons_eq_ite

@[simp] theorem Segment.ofJson?_toJson (s : Segment) : ofJson? s.toJson = some s := by
  simp [ofJson?, toJson]

instance : Restores Segment.ofJson? Segment.toJson :=
  ⟨Segment.ofJson?_toJson, rfl⟩

@[simp] theorem StepBlock.ofJson?_toJson (b : StepBlock) : ofJson? b.toJson = some b := by
  simp [ofJson?, toJson]

instance : Restores StepBlock.ofJson? StepBlock.toJson :=
  ⟨StepBlock.ofJson?_toJson, rfl⟩

@[simp] theorem StepData.ofJson?_toJson (d : StepData) : ofJson? d.toJson = some d := by
  simp [ofJson?, toJson]

@[simp] theorem StepTransition.ofJson?_toJson (t : StepTransition) : ofJson? t.toJson = some t := by
  simp [ofJson?, toJson]

@[simp] theorem StepOpts.ofJson?_toJson (o : StepOpts) : ofJson? o.toJson = some o := by
  simp [ofJson?, toJson]

@[simp] theorem Step.ofJson?_toJson (s : Step) : ofJson? s.toJson = some s := by
  simp [ofJson?, toJson]

instance : Restores Step.ofJson? Step.toJson :=
  ⟨Step.ofJson?_toJson, rfl⟩

@[simp] theorem Relation.ofJson?_toJson (r : Relation) : ofJson? r.toJson = some r := by
  simp [ofJson?, toJson]

instance : Restores Relation.ofJson? Relation.toJson :=
  ⟨Relation.ofJson?_toJson, rfl⟩

@[simp] theorem TargetingRule.condition?_text (s : String) : condition? (.text s) = some s := rfl

@[simp] theorem TargetingRule.ofValue?_value (t : TargetingRule) :
    ofValue? t.condition t.value = some t := by
  cases t <;> simp [ofValue?, condition, value]

@[simp] theorem TargetingRule.ofJson?_toJson (t : TargetingRule) : ofJson? t.toJson = some t := by
  simp [ofJson?, toJson]

instance : Restores TargetingRule.ofJson? TargetingRule.toJson :=
  ⟨TargetingRule.ofJson?_toJson, rfl⟩

@[simp] theorem Targeting.ofJson?_toJson (t : Targeting) : ofJson? t.toJson = some t := by
  simp [ofJson?, toJson]

instance : Restores Targeting.ofJson? Targeting.toJson :=
  ⟨Targeting.ofJson?_toJson, rfl⟩

@[simp] theorem FlowSummary.ofJson?_toJson (s : FlowSummary) : ofJson? s.toJson = some s := by
  simp [ofJson?, toJson]

@[simp] theorem OptsPatch.ofJson?_toJson (p : OptsPatch) : ofJson? p.toJson = some p := by
  simp [ofJson?, toJson]

instance : Restores OptsPatch.ofJson? OptsPatch.toJson :=
  ⟨OptsPatch.ofJson?_toJson, rfl⟩

@[simp] theorem EditorConfig.ofJson?_toJson (c : EditorConfig) : ofJson? c.toJson = some c := by
  simp [ofJson?, toJson]

@[simp] theorem Settings.ofJson?_toJson (s : Settings) : ofJson? s.toJson = some s := by
  simp [ofJson?, toJson]

@[simp] theorem FlowIdSet.ofJson?_toJson (s : FlowIdSet) : ofJson? s.toJson = some s := by
  simp [ofJson?, toJson, ofList_ids]

@[simp] theorem Dictionary.ofJson?_toJson {α : Type} {read : Json → Option α} {write : α → Json}
    [Restores read write] (m : Dictionary α) : ofJson? read (m.toJson write) = some m := by
  have hentries : (m.entries.map fun e ↦ (e.1, write e.2)).mapM
      (fun e ↦ (read e.2).map fun value ↦ (e.1, value)) = some m.entries := by
    induction m.entries with
    | nil => rfl
    | cons e rest ih => simp [ih, Restores.read_write]
  rw [toJson, ofJson?, hentries, Option.map_some, ofList_entries]

@[simp] theorem UserState.ofJson?_toJson (s : UserState) : ofJson? s.toJson = some s := by
  simp [ofJson?, toJson]

@[simp] theorem TrackedEvent.ofJson?_toJson (e : TrackedEvent) : ofJson? e.toJson = some e := by
  simp [ofJson?, toJson]

@[simp] theorem EnrollmentOpts.ofJson?_toJson (o : EnrollmentOpts) : ofJson? o.toJson = some o := by
  simp [ofJson?, toJson]

@[simp] theorem UserProfile.ofJson?_toJson (p : UserProfile) : ofJson? p.toJson = some p := by
  simp [ofJson?, toJson]

@[simp] theorem ProgressReport.ofJson?_toJson (p : ProgressReport) : ofJson? p.toJson = some p := by
  simp [ofJson?, toJson]

@[simp] theorem FlowAnalytics.ofJson?_toJson (a : FlowAnalytics) : ofJson? a.toJson = some a := by
  simp [ofJson?, toJson]

theorem Trigger.ofJson?_toJson_iff {t : Trigger} : ofJson? t.toJson = some t ↔ t.data.Plain := by
  rw [← OpenData.ofJson?_toJson_iff]
  cases t
  simp [ofJson?, toJson, Option.bind_eq_some_iff]

theorem FinishEffect.ofJson?_toJson_iff {e : FinishEffect} :
    ofJson? e.toJson = some e ↔ e.data.Plain := by
  rw [← OpenData.ofJson?_toJson_iff]
  cases e
  simp [ofJson?, toJson, Option.bind_eq_some_iff]

theorem FlowOpts.ofJson?_toJson_iff {o : FlowOpts} :
    ofJson? o.toJson = some o ↔ o.trigger.data.Plain ∧ o.finishEffect.data.Plain := by
  rw [← Trigger.ofJson?_toJson_iff, ← FinishEffect.ofJson?_toJson_iff]
  cases o
  simp [ofJson?, toJson, Option.bind_eq_some_iff]

theorem Flow.ofJson?_toJson_iff {f : Flow} :
    ofJson? f.toJson = some f ↔ f.opts.trigger.data.Plain ∧ f.opts.finishEffect.data.Plain := by
  rw [← FlowOpts.ofJson?_toJson_iff]
  cases f
  -- Under its binder `simp` would go through the record again for every field, so it comes first.
  rw [ofJson?, toJson, bind_eq_some_iff_of_eq (record?_object ?once)]
  case once => simp
  simp [Option.bind_eq_some_iff]

theorem FlowUpdate.ofJson?_toJson_iff {u : FlowUpdate} :
    ofJson? u.toJson = some u ↔
      (∀ t ∈ u.trigger, t.data.Plain) ∧ ∀ e ∈ u.finishEffect, e.data.Plain := by
  simp only [← Trigger.ofJson?_toJson_iff, ← FinishEffect.ofJson?_toJson_iff]
  rw [← Record.optionally_map_iff rfl, ← Record.optionally_map_iff rfl]
  cases u
  rw [ofJson?, toJson, bind_eq_some_iff_of_eq (record?_object ?once)]
  case once => simp
  simp [Option.bind_eq_some_iff]

theorem OpenData.toJson_injective : Function.Injective OpenData.toJson := by
  intro d d' h
  cases d
  cases d'
  cases Json.object.inj h
  rfl

theorem Trigger.toJson_injective : Function.Injective Trigger.toJson := by
  intro t t' h
  obtain ⟨hid, hkind, hdata⟩ : t.id = t'.id ∧ t.kind.toJson = t'.kind.toJson ∧
      t.data.toJson = t'.data.toJson := by
    simpa using Json.object.inj h
  cases t
  cases t'
  obtain rfl := hid
  obtain rfl := Restores.injective TriggerKind.ofJson? hkind
  obtain rfl := OpenData.toJson_injective hdata
  rfl

theorem FinishEffect.toJson_injective : Function.Injective FinishEffect.toJson := by
  intro e e' h
  obtain ⟨hkind, hdata⟩ : e.kind.toJson = e'.kind.toJson ∧ e.data.toJson = e'.data.toJson := by
    simpa using Json.object.inj h
  cases e
  cases e'
  obtain rfl := Restores.injective FinishEffectKind.ofJson? hkind
  obtain rfl := OpenData.toJson_injective hdata
  rfl

theorem FlowOpts.toJson_injective : Function.Injective FlowOpts.toJson := by
  intro o o' h
  have hsame (name : String) := congrArg (List.lookup name) (Json.object.inj h)
  have hsegmentation : o.segmentation = o'.segmentation := by
    simpa using hsame "segmentation"
  have hthemeColor : o.themeColor = o'.themeColor := by simpa using hsame "theme_color"
  have havatarId : o.avatarId = o'.avatarId := by
    simpa using congrArg (Record.optionally text?) (hsame "avatar_id")
  have helementTemplate : o.elementTemplate = o'.elementTemplate :=
    Restores.injective ElementTemplate.ofJson? (by simpa using hsame "element_template")
  have htrigger : o.trigger = o'.trigger :=
    Trigger.toJson_injective (by simpa using hsame "trigger")
  have htargeting : o.targeting = o'.targeting :=
    Restores.injective Targeting.ofJson? (by simpa using hsame "targeting")
  have hdependsOn : o.dependsOn = o'.dependsOn :=
    Restores.injective (list? FlowId.ofJson?) (by simpa using hsame "depends_on")
  have hfinishEffect : o.finishEffect = o'.finishEffect :=
    FinishEffect.toJson_injective (by simpa using hsame "finish_effect")
  cases o
  cases o'
  congr

theorem Flow.toJson_injective : Function.Injective Flow.toJson := by
  intro f f' h
  have hsame (name : String) := congrArg (List.lookup name) (Json.object.inj h)
  have hid : f.id = f'.id :=
    Restores.injective FlowId.ofJson? (by simpa using hsame "id")
  have hworkspace : f.workspace = f'.workspace := by simpa using hsame "workspace_id"
  have hname : f.name = f'.name := by simpa using hsame "name"
  have hbaseUrl : f.baseUrl = f'.baseUrl := by simpa using hsame "base_url"
  have hsegments : f.segments = f'.segments :=
    Restores.injective (list? Segment.ofJson?) (by simpa using hsame "segments")
  have hsteps : f.steps = f'.steps :=
    Restores.injective (list? Step.ofJson?) (by simpa using hsame "steps")
  have hrelations : f.relations = f'.relations :=
    Restores.injective (list? Relation.ofJson?) (by simpa using hsame "relations")
  have hopts : f.opts = f'.opts := FlowOpts.toJson_injective (by simpa using hsame "opts")
  have hlive : f.live = f'.live := by simpa using hsame "live"
  have hrevision : f.revision = f'.revision :=
    Restores.injective uint64? (by simpa using hsame "revision")
  have hcreatedAt : f.createdAt = f'.createdAt :=
    Restores.injective Moment.ofJson? (by simpa using hsame "created_at")
  cases f
  cases f'
  congr

theorem FlowUpdate.toJson_injective : Function.Injective FlowUpdate.toJson := by
  intro u u' h
  have hsame (name : String) := congrArg (List.lookup name) (Json.object.inj h)
  have hname : u.name = u'.name := by
    simpa using congrArg (Record.optionally text?) (hsame "name")
  have hbaseUrl : u.baseUrl = u'.baseUrl := by
    simpa using congrArg (Record.optionally text?) (hsame "base_url")
  have hopts : u.opts = u'.opts := by
    simpa using congrArg (Record.optionally OptsPatch.ofJson?) (hsame "opts")
  have hupdatedSteps : u.updatedSteps = u'.updatedSteps := by
    simpa using congrArg (Record.elseDefault [] (list? Step.ofJson?)) (hsame "updated_steps")
  have hdeletedSteps : u.deletedSteps = u'.deletedSteps := by
    simpa using congrArg (Record.elseDefault [] (list? text?)) (hsame "deleted_steps")
  have hnewSteps : u.newSteps = u'.newSteps := by
    simpa using congrArg (Record.elseDefault [] (list? Step.ofJson?)) (hsame "new_steps")
  have hsegments : u.segments = u'.segments := by
    simpa using congrArg (Record.optionally (list? Segment.ofJson?)) (hsame "segments")
  have hdependsOn : u.dependsOn = u'.dependsOn := by
    simpa using congrArg (Record.optionally (list? text?)) (hsame "depends_on")
  have htrigger : u.trigger = u'.trigger :=
    Option.map_injective Trigger.toJson_injective (by simpa using hsame "trigger")
  have htargeting : u.targeting = u'.targeting := by
    simpa using congrArg (Record.optionally Targeting.ofJson?) (hsame "targeting")
  have hfinishEffect : u.finishEffect = u'.finishEffect :=
    Option.map_injective FinishEffect.toJson_injective (by simpa using hsame "finish_effect")
  have hexpectedRevision : u.expectedRevision = u'.expectedRevision := by
    simpa using congrArg (Record.optionally uint64?) (hsame "expected_revision")
  cases u
  cases u'
  congr

/-- A document without open data is always read back as it was written, one with open data exactly
if the data are plain, and no two documents of a kind are written alike. -/
theorem decoding_undoes_encoding (summary : FlowSummary) (step : Step) (segment : Segment)
    (relation : Relation) (targeting : Targeting) (state : UserState) (event : TrackedEvent)
    (enrollment : EnrollmentOpts) (profile : UserProfile) (report : ProgressReport)
    (analytics : FlowAnalytics) (config : EditorConfig) (settings : Settings) (trigger : Trigger)
    (effect : FinishEffect) (flow : Flow) (update : FlowUpdate) :
    FlowSummary.ofJson? summary.toJson = some summary ∧
    Step.ofJson? step.toJson = some step ∧
    Segment.ofJson? segment.toJson = some segment ∧
    Relation.ofJson? relation.toJson = some relation ∧
    Targeting.ofJson? targeting.toJson = some targeting ∧
    UserState.ofJson? state.toJson = some state ∧
    TrackedEvent.ofJson? event.toJson = some event ∧
    EnrollmentOpts.ofJson? enrollment.toJson = some enrollment ∧
    UserProfile.ofJson? profile.toJson = some profile ∧
    ProgressReport.ofJson? report.toJson = some report ∧
    FlowAnalytics.ofJson? analytics.toJson = some analytics ∧
    EditorConfig.ofJson? config.toJson = some config ∧
    Settings.ofJson? settings.toJson = some settings ∧
    (Trigger.ofJson? trigger.toJson = some trigger ↔ trigger.data.Plain) ∧
    (FinishEffect.ofJson? effect.toJson = some effect ↔ effect.data.Plain) ∧
    (Flow.ofJson? flow.toJson = some flow ↔
      flow.opts.trigger.data.Plain ∧ flow.opts.finishEffect.data.Plain) ∧
    (FlowUpdate.ofJson? update.toJson = some update ↔
      (∀ t ∈ update.trigger, t.data.Plain) ∧ ∀ e ∈ update.finishEffect, e.data.Plain) ∧
    Function.Injective Trigger.toJson ∧ Function.Injective FinishEffect.toJson ∧
    Function.Injective Flow.toJson ∧ Function.Injective FlowUpdate.toJson :=
  ⟨FlowSummary.ofJson?_toJson summary, Step.ofJson?_toJson step,
    Segment.ofJson?_toJson segment, Relation.ofJson?_toJson relation,
    Targeting.ofJson?_toJson targeting, UserState.ofJson?_toJson state,
    TrackedEvent.ofJson?_toJson event, EnrollmentOpts.ofJson?_toJson enrollment,
    UserProfile.ofJson?_toJson profile, ProgressReport.ofJson?_toJson report,
    FlowAnalytics.ofJson?_toJson analytics, EditorConfig.ofJson?_toJson config,
    Settings.ofJson?_toJson settings, Trigger.ofJson?_toJson_iff,
    FinishEffect.ofJson?_toJson_iff, Flow.ofJson?_toJson_iff, FlowUpdate.ofJson?_toJson_iff,
    Trigger.toJson_injective, FinishEffect.toJson_injective, Flow.toJson_injective,
    FlowUpdate.toJson_injective⟩

/-- Data can be read in which an object comes to begin with the reserved name once its members are
in order. They are written, but not read back. -/
theorem data_with_the_reserved_name_are_not_read_back :
    ∃ e : FinishEffect,
      FinishEffect.ofJson? (.object [("type", .text "none"),
        ("data", .object [("x", .object [("a", .int 1), (embeddedName, .text "1")])])]) = some e ∧
      FinishEffect.ofJson? e.toJson = none :=
  ⟨_, rfl, rfl⟩

end GuidedTours
