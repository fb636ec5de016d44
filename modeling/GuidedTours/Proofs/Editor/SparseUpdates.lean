import GuidedTours.Proofs.Ascending
import GuidedTours.Proofs.Editor.Revise
import GuidedTours.Proofs.Editor.Schedule

/-!
A sparse update touches what it names and nothing else. Every part of the updated flow is told by
the part of the flow that was loaded and by the field of the update for it: an absent field leaves
the part alone, a present one replaces it, though some empty values keep what is there and the
catalog completes a finish effect. An update that names no step leaves steps and relations that are
worked out as they are, so one without any field changes nothing.
-/

set_option autoImplicit false

namespace GuidedTours

open StepTree

variable {f g : Flow} {found : Outline} {config : EditorConfig} {fresh : Nat → String}

theorem OpenData.get?_insert (d : OpenData) (key name : String) (value : Json)
    (h : value.Canonical) :
    (d.insert key value h).get? name = if name = key then some value else d.get? name :=
  lookup_insert key name value d.members

namespace FinishEffect

/-- What the catalog makes of an effect. -/
structure Completes (base : String) (e e' : FinishEffect) : Prop where
  kind : e'.kind = e.kind
  plain : e.kind = .none → e'.data = e.data
  /-- An animation that the catalog does not know is centered. -/
  unlisted : e.kind = .fullScreenAnimation → e.animation? = none → ∀ name, e'.data.get? name =
    if name = "position" then some (.text Animation.middleScreen) else e.data.get? name
  listed : ∀ a, e.kind = .fullScreenAnimation → e.animation? = some a → ∀ name, e'.data.get? name =
    if name = "position" then some (.text a.position)
    else if name = "duration_s" then some (.int a.seconds)
    else if name = "url" then some (.text (a.url base))
    else e.data.get? name

theorem completes_complete (base : String) (e : FinishEffect) :
    Completes base e (e.complete base) := by
  unfold complete
  cases hkind : e.kind with
  | none => exact ⟨rfl, fun _ ↦ rfl, by simp [hkind], by simp [hkind]⟩
  | fullScreenAnimation =>
    cases hlisted : e.animation? with
    | none =>
      refine ⟨hkind.symm, by simp [hkind], fun _ _ name ↦ ?_, by simp [hlisted]⟩
      exact OpenData.get?_insert e.data "position" name (.text Animation.middleScreen) trivial
    | some a =>
      refine ⟨hkind.symm, by simp [hkind], by simp [hlisted], fun b _ hb name ↦ ?_⟩
      obtain rfl : a = b := Option.some.inj (hlisted.symm.trans hb)
      let centered := e.data.insert "position" (.text Animation.middleScreen) trivial
      let placed := centered.insert "url" (.text (a.url base)) trivial
      let timed := placed.insert "duration_s" (.int a.seconds) trivial
      have hcentered := OpenData.get?_insert e.data "position" name
        (.text Animation.middleScreen) trivial
      have hplaced := OpenData.get?_insert centered "url" name (.text (a.url base)) trivial
      have htimed := OpenData.get?_insert placed "duration_s" name (.int a.seconds) trivial
      have hlast := OpenData.get?_insert timed "position" name (.text a.position) trivial
      -- the position is written twice, and the second time counts
      refine hlast.trans (ite_congr rfl (fun _ ↦ rfl) fun hposition ↦ ?_)
      rw [htimed, hplaced, hcentered, if_neg hposition]

end FinishEffect

namespace FlowUpdate

variable {u : FlowUpdate}

/-- How each part of an updated flow follows from the loaded flow and the update. -/
structure Touches (u : FlowUpdate) (config : EditorConfig) (fresh : Nat → String) (f g : Flow) :
    Prop where
  id : g.id = f.id
  workspace : g.workspace = f.workspace
  live : g.live = f.live
  revision : g.revision = f.revision
  createdAt : g.createdAt = f.createdAt
  name : g.name = u.name.getD f.name
  baseUrl : g.baseUrl = u.baseUrl.getD f.baseUrl
  trigger : g.opts.trigger = u.trigger.getD f.opts.trigger
  targeting : g.opts.targeting = u.targeting.getD f.opts.targeting
  keepsDependencies : u.dependsOn = none → g.opts.dependsOn = f.opts.dependsOn
  setsDependencies : ∀ raw, u.dependsOn = some raw →
    ∃ named : List FlowId, raw.map FlowId.parseEntered? = named.map some ∧ f.id ∉ named ∧
      g.opts.dependsOn = named.eraseDups
  clearsDependencies : u.dependsOn = some [] → g.opts.dependsOn = []
  keepsFinishEffect : u.finishEffect = none → g.opts.finishEffect = f.opts.finishEffect
  setsFinishEffect : ∀ e, u.finishEffect = some e →
    e.Completes config.assetBaseUrl g.opts.finishEffect
  keepsSegments : u.segments = none →
    g.segments = f.segments ∧ g.opts.segmentation = f.opts.segmentation
  setsSegments : ∀ segments, u.segments = some segments →
    g.segments = Segment.upsert fresh f.segments segments ∧
      (g.opts.segmentation ↔ segments ≠ [])
  keepsLook : u.opts = none → g.opts.themeColor = f.opts.themeColor ∧
    g.opts.avatarId = f.opts.avatarId ∧ g.opts.elementTemplate = f.opts.elementTemplate
  setsLook : ∀ p, u.opts = some p →
    g.opts.themeColor = (if p.themeColor = "" then f.opts.themeColor else p.themeColor) ∧
      g.opts.avatarId = p.avatarId ∧
      g.opts.elementTemplate = p.elementTemplate.getD f.opts.elementTemplate
  keepsSteps : ∀ found, outline f.steps = .ok (found, f.steps) → found.relations = f.relations →
    u.deletedSteps = [] → u.updatedSteps = [] → u.newSteps = [] →
    g.steps = f.steps ∧ g.relations = f.relations

/-- Without steps to delete, to change or to add the step list stays as it is. -/
theorem steps_of_unnamed (hdeleted : u.deletedSteps = []) (hupdated : u.updatedSteps = [])
    (hnew : u.newSteps = []) (policy : DeletePolicy) (steps : List Step) :
    u.steps policy steps = .ok steps := by
  rw [FlowUpdate.steps, hdeleted, hupdated, hnew]
  rfl

theorem touches_of_apply (h : u.apply config fresh f = .ok (found, g)) :
    u.Touches config fresh f g := by
  obtain ⟨steps, dependsOn, hsteps, hdependsOn, hrefresh⟩ := apply_cases h
  obtain ⟨marked, houtline, rfl⟩ := Flow.refresh_eq_ok_iff.mp hrefresh
  rw [options_eq] at houtline ⊢
  unfold dependencies at hdependsOn
  have hgiven : ∀ raw, u.dependsOn = some raw → ∃ named : List FlowId,
      raw.map FlowId.parseEntered? = named.map some ∧ f.id ∉ named ∧
        dependsOn = named.eraseDups := by
    intro raw hraw
    rw [hraw] at hdependsOn
    exact parseDependencies_cases hdependsOn
  constructor
  case id | workspace | live | revision | createdAt | name | baseUrl | trigger | targeting => rfl
  case keepsDependencies =>
    intro habsent
    rw [habsent] at hdependsOn
    exact (Except.ok.inj hdependsOn).symm
  case setsDependencies => exact hgiven
  case clearsDependencies =>
    intro hempty
    obtain ⟨named, hparsed, -, heq⟩ := hgiven [] hempty
    rw [List.map_nil, eq_comm, List.map_eq_nil_iff] at hparsed
    subst hparsed
    exact heq
  case keepsFinishEffect =>
    intro habsent
    simp only [habsent]
    rfl
  case setsFinishEffect =>
    intro e he
    simp only [he]
    exact FinishEffect.completes_complete _ e
  case keepsSegments =>
    intro habsent
    simp only [habsent]
    exact ⟨rfl, rfl⟩
  case setsSegments =>
    intro segments hsegments
    simp [hsegments]
  case keepsLook =>
    intro habsent
    simp only [habsent]
    exact ⟨rfl, rfl, rfl⟩
  case setsLook =>
    intro p hp
    simp only [hp]
    exact ⟨rfl, rfl, rfl⟩
  case keepsSteps =>
    intro found' hsettled hrelations hdeleted hupdated hnew
    rw [steps_of_unnamed hdeleted hupdated hnew] at hsteps
    obtain rfl := Except.ok.inj hsteps
    obtain ⟨rfl, rfl⟩ := Prod.mk.inj (Except.ok.inj (houtline.symm.trans hsettled))
    exact ⟨rfl, hrelations⟩

/-- An update that names nothing gives back a flow whose steps and relations are worked out. -/
theorem apply_of_unnamed (h : outline f.steps = .ok (found, f.steps))
    (hrelations : found.relations = f.relations) (revision : Option UInt64) :
    ({ expectedRevision := revision } : FlowUpdate).apply config fresh f = .ok (found, f) := by
  have hrefresh : f.refresh = .ok (found, f) :=
    Flow.refresh_eq_ok_iff.mpr ⟨f.steps, h, by rw [hrelations]⟩
  show f.refresh.mapError EditError.tree = _
  rw [hrefresh]
  rfl

/-- A successful update touches the parts of a flow that it names as told above and no others, and
one that names none gives the flow back as it was. -/
theorem only_named_parts_change (config : EditorConfig) (fresh : Nat → String) (f : Flow) :
    (∀ (u : FlowUpdate) found g, u.apply config fresh f = .ok (found, g) →
      u.Touches config fresh f g) ∧
    ∀ found, outline f.steps = .ok (found, f.steps) → found.relations = f.relations →
      ∀ revision, ({ expectedRevision := revision } : FlowUpdate).apply config fresh f =
        .ok (found, f) :=
  ⟨fun _ _ _ h ↦ touches_of_apply h, fun _ h hrelations ↦ apply_of_unnamed h hrelations⟩

/-- Two steps as they are worked out, in a flow with a look and a dependency. -/
def signposted : Flow :=
  { Desk.draft with
    segments := [{ id := "s", name := "Everyone" }]
    steps := [{ id := "a", opts := { isSource := true } },
      { id := "b", parentId := some "a", opts := { isFinal := true } }]
    relations := [⟨"a", "b"⟩]
    opts := {
      segmentation := true, themeColor := "red", avatarId := some "owl", dependsOn := [⟨3⟩] } }

/-- Clears the avatar and the segmentation, and names one flow twice to wait for. -/
def retouch : FlowUpdate where
  name := some "Tour"
  opts := some {}
  segments := some []
  dependsOn := some [" 00000000-0000-0000-0000-00000000000A", "0000000000000000000000000000000b",
    "0000000000000000000000000000000a"]
  finishEffect := some (.fullScreenAnimation "fireworks_1")

def retouched : Flow :=
  { signposted with
    name := "Tour"
    opts := { signposted.opts with
      segmentation := false
      avatarId := none
      dependsOn := [⟨10⟩, ⟨11⟩]
      finishEffect := (FinishEffect.fullScreenAnimation "fireworks_1").complete "/assets/" } }

theorem only_named_parts_change_retouching : ∃ found,
    retouch.apply {} (fun _ ↦ "") signposted = .ok (found, retouched) ∧
    retouch.Touches {} (fun _ ↦ "") signposted retouched ∧
    ({} : FlowUpdate).apply {} (fun _ ↦ "") signposted = .ok (found, signposted) := by
  have sparse := only_named_parts_change {} (fun _ ↦ "") signposted
  have hdependencies : retouch.dependencies signposted = .ok [⟨10⟩, ⟨11⟩] := by decide +kernel
  have houtline : outline signposted.steps =
      .ok (⟨some "a", [⟨"a", "b"⟩], []⟩, signposted.steps) := by decide +kernel
  have hrefresh : retouched.refresh = .ok (⟨some "a", [⟨"a", "b"⟩], []⟩, retouched) :=
    Flow.refresh_eq_ok_iff.mpr ⟨signposted.steps, houtline, rfl⟩
  have happly : retouch.apply {} (fun _ ↦ "") signposted =
      .ok (⟨some "a", [⟨"a", "b"⟩], []⟩, retouched) := by
    rw [apply, hdependencies]
    show retouched.refresh.mapError EditError.tree = _
    rw [hrefresh]
    rfl
  exact ⟨_, happly, sparse.1 retouch _ _ happly, sparse.2 _ houtline rfl none⟩

end FlowUpdate

end GuidedTours
