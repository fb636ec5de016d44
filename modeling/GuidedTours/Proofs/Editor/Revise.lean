import GuidedTours.Editor
import GuidedTours.Proofs.StepTree.Forest
import Mathlib.Data.List.Induction

/-!
What an edit makes of the flow it loads. Updates and step edits end with a new outline, so whatever
they are given, the steps and relations they leave are worked out; publishing touches neither. All
edits keep the id, the workspace and the revision of the flow, and a list of dependencies that was
read names no flow twice and never the flow itself.
-/

set_option autoImplicit false

namespace GuidedTours

open StepTree

variable {f g : Flow} {found : Outline} {config : EditorConfig} {workspace : String}

/-- The steps of a flow are marked, its relations are theirs, and it waits for other flows only,
for each of them once. -/
structure Flow.Settled (f : Flow) : Prop where
  distinct : (f.steps.map Step.id).Nodup
  oneRoot : f.steps = [] ∨ f.steps.countP (·.parent?.isNone) = 1
  outlined : ∃ found, outline f.steps = .ok (found, f.steps) ∧ found.relations = f.relations
  dependenciesNodup : f.opts.dependsOn.Nodup
  notOnItself : f.id ∉ f.opts.dependsOn

namespace Flow

theorem refresh_eq_ok_iff :
    f.refresh = .ok (found, g) ↔ ∃ marked, outline f.steps = .ok (found, marked) ∧
      g = { f with steps := marked, relations := found.relations } := by
  unfold refresh
  rw [map_eq_ok_iff]
  constructor
  · intro h
    obtain ⟨result, houtline, heq⟩ := h
    obtain ⟨hfound, hg⟩ := Prod.mk.inj heq
    exact ⟨result.2, hfound ▸ houtline, hfound ▸ hg.symm⟩
  · intro h
    obtain ⟨marked, houtline, hg⟩ := h
    exact ⟨(found, marked), houtline, by rw [hg]⟩

theorem settled_refresh (hrefresh : f.refresh = .ok (found, g)) (hnodup : f.opts.dependsOn.Nodup)
    (hself : f.id ∉ f.opts.dependsOn) : g.Settled := by
  obtain ⟨marked, houtline, rfl⟩ := refresh_eq_ok_iff.mp hrefresh
  have hmarked := outline_marked houtline
  obtain ⟨hdistinct, hroot⟩ := exists_outline_eq_ok_iff.mp ⟨_, hmarked⟩
  exact ⟨hdistinct, hroot, ⟨found, hmarked, rfl⟩, hnodup, hself⟩

theorem tree_refresh (h : Forest f.steps) (hrefresh : f.refresh = .ok (found, g)) :
    IsTree g.steps := by
  obtain ⟨marked, houtline, rfl⟩ := refresh_eq_ok_iff.mp hrefresh
  exact h.tree_marked houtline

end Flow

theorem parseFlowId_eq_ok_iff {raw : String} {id : FlowId} :
    parseFlowId raw = .ok id ↔ FlowId.parseEntered? raw = some id := by
  unfold parseFlowId
  cases FlowId.parseEntered? raw <;> simp

theorem parseDependencies_concat {flow : FlowId} {raw : List String} {text : String}
    {ids : List FlowId} (h : parseDependencies flow (raw ++ [text]) = .ok ids) :
    ∃ before id, parseDependencies flow raw = .ok before ∧ FlowId.parseEntered? text = some id ∧
      id ≠ flow ∧ ids = if id ∈ before then before else before ++ [id] := by
  rw [parseDependencies, List.foldlM_append] at h
  obtain ⟨before, hbefore, hlast⟩ := bind_eq_ok_iff.mp h
  simp only [List.foldlM_cons, List.foldlM_nil, bind_pure] at hlast
  cases hparse : parseFlowId text with
  | error e => simp [hparse] at hlast
  | ok id =>
    by_cases hid : id = flow
    · simp [hparse, hid] at hlast
    · simp only [hparse, hid, if_false, Except.ok.injEq, List.contains_iff_mem] at hlast
      exact ⟨before, id, hbefore, parseFlowId_eq_ok_iff.mp hparse, hid, hlast.symm⟩

/-- All texts are ids, none is that of the flow itself, and repeats are left out. -/
theorem parseDependencies_cases {flow : FlowId} {raw : List String} {ids : List FlowId}
    (h : parseDependencies flow raw = .ok ids) :
    ∃ named : List FlowId, raw.map FlowId.parseEntered? = named.map some ∧ flow ∉ named ∧
      ids = named.eraseDups := by
  induction raw using List.reverseRecOn generalizing ids with
  | nil => exact ⟨[], rfl, List.not_mem_nil, (Except.ok.inj h).symm⟩
  | append_singleton raw text ih =>
    obtain ⟨before, id, hbefore, hparse, hid, hids⟩ := parseDependencies_concat h
    obtain ⟨named, hparsed, hself, rfl⟩ := ih hbefore
    refine ⟨named ++ [id], ?_, ?_, ?_⟩
    · rw [List.map_append, List.map_append, hparsed, List.map_singleton, List.map_singleton, hparse]
    · simp [hself, Ne.symm hid]
    · simp only [hids, eraseDups_concat, List.mem_eraseDups]

theorem parseDependencies_ok {flow : FlowId} {raw : List String} {ids : List FlowId}
    (h : parseDependencies flow raw = .ok ids) : ids.Nodup ∧ flow ∉ ids := by
  obtain ⟨named, -, hself, rfl⟩ := parseDependencies_cases h
  exact ⟨nodup_eraseDups named, fun hmem ↦ hself (List.mem_eraseDups.mp hmem)⟩

namespace FlowUpdate

variable {u : FlowUpdate} {fresh : Nat → String}

/-- Each option by itself. -/
theorem options_eq (u : FlowUpdate) (config : EditorConfig) (opts : FlowOpts)
    (dependsOn : List FlowId) : u.options config opts dependsOn =
      { segmentation := (u.segments.map fun segments ↦ !segments.isEmpty).getD opts.segmentation
        themeColor := u.opts.elim opts.themeColor fun p ↦
          if p.themeColor = "" then opts.themeColor else p.themeColor
        avatarId := u.opts.elim opts.avatarId OptsPatch.avatarId
        elementTemplate := u.opts.elim opts.elementTemplate fun p ↦
          p.elementTemplate.getD opts.elementTemplate
        trigger := u.trigger.getD opts.trigger
        targeting := u.targeting.getD opts.targeting
        dependsOn
        finishEffect :=
          (u.finishEffect.map (·.complete config.assetBaseUrl)).getD opts.finishEffect } := by
  unfold options
  cases u.opts <;> rfl

theorem dependsOn_options (u : FlowUpdate) (config : EditorConfig) (opts : FlowOpts)
    (dependsOn : List FlowId) : (u.options config opts dependsOn).dependsOn = dependsOn := by
  rw [options_eq]

theorem dependencies_ok {ids : List FlowId} (h : u.dependencies f = .ok ids)
    (hnodup : f.opts.dependsOn.Nodup) (hself : f.id ∉ f.opts.dependsOn) :
    ids.Nodup ∧ f.id ∉ ids := by
  unfold dependencies at h
  cases hraw : u.dependsOn with
  | none =>
    rw [hraw] at h
    exact Except.ok.inj h ▸ ⟨hnodup, hself⟩
  | some raw =>
    rw [hraw] at h
    exact parseDependencies_ok h

/-- A successful update edits the steps, reads the dependencies and refreshes the flow. -/
theorem apply_cases (h : u.apply config fresh f = .ok (found, g)) :
    ∃ steps dependsOn, u.steps config.deletePolicy f.steps = .ok steps ∧
      u.dependencies f = .ok dependsOn ∧
      Flow.refresh { f with
        name := u.name.getD f.name
        baseUrl := u.baseUrl.getD f.baseUrl
        steps
        segments := (u.segments.map (Segment.upsert fresh f.segments)).getD f.segments
        opts := u.options config f.opts dependsOn } = .ok (found, g) := by
  unfold apply at h
  obtain ⟨steps, hsteps, h⟩ := bind_eq_ok_iff.mp h
  obtain ⟨dependsOn, hdependsOn, h⟩ := bind_eq_ok_iff.mp h
  exact ⟨steps, dependsOn, mapError_eq_ok_iff.mp hsteps, hdependsOn, mapError_eq_ok_iff.mp h⟩

end FlowUpdate

namespace Edit

variable {e : Edit}

/-- Every edit but publishing refreshes the flow, with other steps and other dependencies. -/
theorem revise_cases (h : e.revise config f = .ok g) :
    (∃ live, e = .setLive live ∧ g = { f with live }) ∨
    (∃ u fresh found, e = .update u fresh ∧ u.apply config fresh f = .ok (found, g)) ∨
    ∃ id input steps found, e = .updateStep id input ∧
      replace f.steps id input.data input.parent? = .ok steps ∧
      Flow.refresh { f with steps } = .ok (found, g) := by
  cases e with
  | setLive live => exact .inl ⟨live, rfl, (Except.ok.inj h).symm⟩
  | update u fresh =>
    obtain ⟨result, happly, hg⟩ := map_eq_ok_iff.mp h
    exact .inr (.inl ⟨u, fresh, result.1, rfl, hg ▸ happly⟩)
  | updateStep id input =>
    unfold revise at h
    obtain ⟨steps, hsteps, h⟩ := bind_eq_ok_iff.mp h
    obtain ⟨result, hrefresh, hg⟩ := bind_eq_ok_iff.mp h
    rw [mapError_eq_ok_iff] at hsteps hrefresh
    exact .inr (.inr ⟨id, input, steps, result.1, rfl, hsteps, Except.ok.inj hg ▸ hrefresh⟩)

theorem revise_keeps (h : e.revise config f = .ok g) :
    g.id = f.id ∧ g.workspace = f.workspace ∧ g.createdAt = f.createdAt ∧
      g.revision = f.revision := by
  rcases revise_cases h with ⟨live, -, rfl⟩ | ⟨u, fresh, found, -, happly⟩ |
    ⟨id, input, steps, found, -, -, hrefresh⟩
  · exact ⟨rfl, rfl, rfl, rfl⟩
  · obtain ⟨steps, dependsOn, -, -, hrefresh⟩ := FlowUpdate.apply_cases happly
    obtain ⟨marked, -, rfl⟩ := Flow.refresh_eq_ok_iff.mp hrefresh
    exact ⟨rfl, rfl, rfl, rfl⟩
  · obtain ⟨marked, -, rfl⟩ := Flow.refresh_eq_ok_iff.mp hrefresh
    exact ⟨rfl, rfl, rfl, rfl⟩

theorem settled_revise (hf : f.Settled) (h : e.revise config f = .ok g) : g.Settled := by
  rcases revise_cases h with ⟨live, -, rfl⟩ | ⟨u, fresh, found, -, happly⟩ |
    ⟨id, input, steps, found, -, -, hrefresh⟩
  · exact ⟨hf.distinct, hf.oneRoot, hf.outlined, hf.dependenciesNodup, hf.notOnItself⟩
  · obtain ⟨steps, dependsOn, -, hdependsOn, hrefresh⟩ := FlowUpdate.apply_cases happly
    obtain ⟨hnodup, hself⟩ :=
      FlowUpdate.dependencies_ok hdependsOn hf.dependenciesNodup hf.notOnItself
    refine Flow.settled_refresh hrefresh ?_ ?_
    · rwa [FlowUpdate.dependsOn_options]
    · rwa [FlowUpdate.dependsOn_options]
  · exact Flow.settled_refresh hrefresh hf.dependenciesNodup hf.notOnItself

end Edit

/-- Any mix of deletions, changed and new steps leads from a tree to a tree. -/
theorem FlowUpdate.tree_apply {u : FlowUpdate} {fresh : Nat → String} (hf : IsTree f.steps)
    (hpolicy : config.deletePolicy = .reconnectAll)
    (h : u.apply config fresh f = .ok (found, g)) :
    IsTree g.steps ∧ found.unreachable = [] := by
  obtain ⟨steps, dependsOn, hsteps, -, hrefresh⟩ := apply_cases h
  rw [hpolicy] at hsteps
  have hforest : Forest steps := forest_update hf.forest hsteps
  refine ⟨Flow.tree_refresh hforest hrefresh, ?_⟩
  obtain ⟨marked, houtline, -⟩ := Flow.refresh_eq_ok_iff.mp hrefresh
  exact hforest.unreachable_eq_nil houtline

theorem Edit.tree_revise {e : Edit} (hf : IsTree f.steps)
    (hpolicy : config.deletePolicy = .reconnectAll) (h : e.revise config f = .ok g) :
    IsTree g.steps := by
  rcases revise_cases h with ⟨live, -, rfl⟩ | ⟨u, fresh, found, -, happly⟩ |
    ⟨id, input, steps, found, -, hsteps, hrefresh⟩
  · exact hf
  · exact (FlowUpdate.tree_apply hf hpolicy happly).1
  · exact Flow.tree_refresh (hf.forest.replace hsteps) hrefresh

namespace Editor

variable {input : FlowUpdate} {id : FlowId} {now : Moment}

theorem newFlow_cases (h : newFlow workspace input id now = .ok f) :
    ∃ name baseUrl found, input.name = some name ∧ input.baseUrl = some baseUrl ∧
      Flow.refresh { id, workspace, name, baseUrl, steps := input.newSteps, createdAt := now } =
        .ok (found, f) := by
  unfold newFlow at h
  obtain ⟨name, hname, h⟩ := bind_eq_ok_iff.mp h
  obtain ⟨baseUrl, hbaseUrl, h⟩ := bind_eq_ok_iff.mp h
  obtain ⟨result, hrefresh, hf⟩ := bind_eq_ok_iff.mp h
  refine ⟨name, baseUrl, result.1, ?_, ?_, Except.ok.inj hf ▸ mapError_eq_ok_iff.mp hrefresh⟩
  · cases hinput : input.name with
    | none => simp [hinput] at hname
    | some other => simpa [hinput] using hname
  · cases hinput : input.baseUrl with
    | none => simp [hinput] at hbaseUrl
    | some other => simpa [hinput] using hbaseUrl

theorem newFlow_keeps (h : newFlow workspace input id now = .ok f) :
    f.id = id ∧ f.workspace = workspace ∧ f.createdAt = now ∧ f.revision = 0 := by
  obtain ⟨name, baseUrl, found, -, -, hrefresh⟩ := newFlow_cases h
  obtain ⟨marked, -, rfl⟩ := Flow.refresh_eq_ok_iff.mp hrefresh
  exact ⟨rfl, rfl, rfl, rfl⟩

theorem settled_newFlow (h : newFlow workspace input id now = .ok f) : f.Settled := by
  obtain ⟨name, baseUrl, found, -, -, hrefresh⟩ := newFlow_cases h
  exact Flow.settled_refresh hrefresh List.nodup_nil List.not_mem_nil

theorem tree_newFlow (hforest : Forest input.newSteps)
    (h : newFlow workspace input id now = .ok f) : IsTree f.steps := by
  obtain ⟨name, baseUrl, found, -, -, hrefresh⟩ := newFlow_cases h
  exact Flow.tree_refresh hforest hrefresh

end Editor

end GuidedTours
