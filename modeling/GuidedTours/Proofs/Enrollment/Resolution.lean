import GuidedTours.Proofs.Enrollment.Operations
import GuidedTours.Proofs.Enrollment.Rule
import GuidedTours.Proofs.Sessions
import GuidedTours.Proofs.Store.Shelves

/-!
What a resolution answers. It looks at nothing but the shelf of the workspace: at the flow that the
user is in the middle of, or else at one flow after the other until one may be offered.
-/

set_option autoImplicit false

namespace GuidedTours

variable {σ : Type} [Store σ] {s : σ} {workspace : String} {opts : EnrollmentOpts} {now : Moment}

namespace Enrollment

/-- The flow with an id if it is live. -/
def liveOn (id : FlowId) (flows : List Flow) : Option Flow :=
  (flows.find? (·.id = id)).filter (·.live)

/-- The answer for flows that can all be read. -/
def resolveOn (opts : EnrollmentOpts) (now : Moment) (flows : List Flow) :
    Except EnrollError (Option Flow) :=
  match named? opts.currentEnrollmentId with
  | some current => (parseFlowId current).map fun id ↦ liveOn id flows
  | none => .ok (flows.find? fun f ↦ f.live && (Eligibility.of opts now).accepts f)

theorem liveOn_eq_some_iff {id : FlowId} {flows : List Flow} {f : Flow} :
    liveOn id flows = some f ↔ flows.find? (·.id = id) = some f ∧ f.live :=
  Option.filter_eq_some_iff

section Shelves

variable [Shelves σ]

theorem liveFlow_cases (hs : Shelves.Sound s) (workspace flowId : String) :
    liveFlow workspace flowId s =
        (parseFlowId flowId).map (fun id ↦ liveOn id (Shelves.shelf workspace s)) ∨
      Shelves.Illegible workspace s ∧
        liveFlow workspace flowId s = .error (.store .unreadableRow) := by
  unfold liveFlow
  cases parseFlowId flowId with
  | error e => exact .inl rfl
  | ok id =>
    rcases Shelves.getFlow_cases hs workspace id with hget | ⟨hillegible, hget⟩
    · refine .inl ?_
      simp only [ok_bind, hget, Except.map, liveOn]
      cases (Shelves.shelf workspace s).find? (·.id = id) with
      | none => rfl
      | some f => rfl
    · refine .inr ⟨hillegible, ?_⟩
      simp only [ok_bind, hget]
      rfl

theorem resolve_cases (hs : Shelves.Sound s) (workspace : String) (opts : EnrollmentOpts)
    (now : Moment) :
    resolve workspace opts now s = resolveOn opts now (Shelves.shelf workspace s) ∨
      Shelves.Illegible workspace s ∧
        resolve workspace opts now s = .error (.store .unreadableRow) := by
  unfold resolve resolveOn
  cases named? opts.currentEnrollmentId with
  | some current => exact liveFlow_cases hs workspace current
  | none =>
    rcases Shelves.listLiveFlows_cases hs workspace with hlist | ⟨hillegible, hlist⟩
    · refine .inl ?_
      rw [hlist]
      refine congrArg Except.ok (List.find?_filter.trans ?_)
      exact List.find?_congr fun f _ ↦ by simp
    · refine .inr ⟨hillegible, ?_⟩
      rw [hlist]
      rfl

end Shelves

end Enrollment

namespace EnrollmentOpts

/-- The answer that the rule prescribes for the flows of a workspace in the order of their
listing. -/
inductive Prescribed (opts : EnrollmentOpts) (now : Moment) (flows : List Flow) :
    Except EnrollError (Option Flow) → Prop
  /-- Whatever else holds, a text in the place of the current flow must be an id. -/
  | malformed {raw : String} (hcurrent : opts.currentEnrollmentId = some raw) (hraw : raw ≠ "")
    (hid : FlowId.parseEntered? raw = none) :
    Prescribed opts now flows (.error (.malformedFlowId raw))
  | resumed {raw : String} {id : FlowId} {f : Flow}
    (hcurrent : opts.currentEnrollmentId = some raw) (hraw : raw ≠ "")
    (hid : FlowId.parseEntered? raw = some id) (hfind : flows.find? (·.id = id) = some f)
    (hlive : f.live) : Prescribed opts now flows (.ok (some f))
  | gone {raw : String} {id : FlowId} (hcurrent : opts.currentEnrollmentId = some raw)
    (hraw : raw ≠ "") (hid : FlowId.parseEntered? raw = some id)
    (hgone : ∀ f, flows.find? (·.id = id) = some f → ¬ f.live) :
    Prescribed opts now flows (.ok none)
  | offered {f : Flow} {before later : List Flow}
    (hcurrent : ∀ raw, opts.currentEnrollmentId = some raw → raw = "")
    (hflows : flows = before ++ f :: later) (hbefore : ∀ g ∈ before, ¬ opts.Offerable now g)
    (hf : opts.Offerable now f) : Prescribed opts now flows (.ok (some f))
  | nothing (hcurrent : ∀ raw, opts.currentEnrollmentId = some raw → raw = "")
    (hflows : ∀ f ∈ flows, ¬ opts.Offerable now f) : Prescribed opts now flows (.ok none)

end EnrollmentOpts

namespace Enrollment

theorem named?_eq_none_iff {name : Option String} :
    named? name = none ↔ ∀ s, name = some s → s = "" := by
  simp [named?, Option.filter_eq_none_iff]

theorem resolveOn_of_current {raw : String} (hcurrent : opts.currentEnrollmentId = some raw)
    (hraw : raw ≠ "") (flows : List Flow) :
    resolveOn opts now flows = (parseFlowId raw).map fun id ↦ liveOn id flows := by
  rw [resolveOn, named?_eq_some_iff.mpr ⟨hcurrent, hraw⟩]

theorem resolveOn_of_no_current
    (hcurrent : ∀ raw, opts.currentEnrollmentId = some raw → raw = "") (flows : List Flow) :
    resolveOn opts now flows =
      .ok (flows.find? fun f ↦ f.live && (Eligibility.of opts now).accepts f) := by
  rw [resolveOn, named?_eq_none_iff.mpr hcurrent]

/-- The answer is prescribed. -/
theorem prescribed_resolveOn (hnow : now.isLeapSecond = false) (flows : List Flow) :
    opts.Prescribed now flows (resolveOn opts now flows) := by
  cases hnamed : named? opts.currentEnrollmentId with
  | some raw =>
    obtain ⟨hcurrent, hraw⟩ := named?_eq_some_iff.mp hnamed
    rw [resolveOn_of_current hcurrent hraw]
    rcases parseFlowId_cases raw with ⟨hid, hparse⟩ | ⟨id, hid, hparse⟩
    · rw [hparse]
      exact .malformed hcurrent hraw hid
    · rw [hparse, Except.map]
      cases hlive : liveOn id flows with
      | some f =>
        obtain ⟨hfind, hlive⟩ := liveOn_eq_some_iff.mp hlive
        exact .resumed hcurrent hraw hid hfind hlive
      | none =>
        refine .gone hcurrent hraw hid fun f hfind hf ↦ ?_
        exact Option.some_ne_none f ((liveOn_eq_some_iff.mpr ⟨hfind, hf⟩).symm.trans hlive)
  | none =>
    have hcurrent := named?_eq_none_iff.mp hnamed
    rw [resolveOn_of_no_current hcurrent]
    cases hfind : flows.find? fun f ↦ f.live && (Eligibility.of opts now).accepts f with
    | some f =>
      obtain ⟨hf, before, later, hflows, hbefore⟩ := List.find?_eq_some_iff_append.mp hfind
      refine .offered hcurrent hflows (fun g hg hoffer ↦ ?_) ((Eligibility.accepts_iff hnow).mp hf)
      have hrefused := hbefore g hg
      rw [(Eligibility.accepts_iff hnow).mpr hoffer] at hrefused
      exact absurd hrefused (by decide)
    | none =>
      refine .nothing hcurrent fun f hf hoffer ↦ ?_
      exact List.find?_eq_none.mp hfind f hf ((Eligibility.accepts_iff hnow).mpr hoffer)

/-- No other answer is prescribed. -/
theorem resolveOn_of_prescribed (hnow : now.isLeapSecond = false) {flows : List Flow}
    {answer : Except EnrollError (Option Flow)} (h : opts.Prescribed now flows answer) :
    resolveOn opts now flows = answer := by
  cases h with
  | malformed hcurrent hraw hid =>
    rw [resolveOn_of_current hcurrent hraw, parseFlowId, hid]
    rfl
  | resumed hcurrent hraw hid hfind hlive =>
    rw [resolveOn_of_current hcurrent hraw, parseFlowId_of_some hid, Except.map,
      liveOn_eq_some_iff.mpr ⟨hfind, hlive⟩]
  | gone hcurrent hraw hid hgone =>
    rw [resolveOn_of_current hcurrent hraw, parseFlowId_of_some hid, Except.map]
    refine congrArg Except.ok (Option.eq_none_iff_forall_ne_some.mpr fun f hf ↦ ?_)
    obtain ⟨hfind, hlive⟩ := liveOn_eq_some_iff.mp hf
    exact hgone f hfind hlive
  | offered hcurrent hflows hbefore hf =>
    rw [resolveOn_of_no_current hcurrent]
    refine congrArg Except.ok (List.find?_eq_some_iff_append.mpr
      ⟨(Eligibility.accepts_iff hnow).mpr hf, _, _, hflows, fun g hg ↦ ?_⟩)
    rw [Bool.not_eq_true', Bool.eq_false_iff]
    exact fun haccepts ↦ hbefore g hg ((Eligibility.accepts_iff hnow).mp haccepts)
  | nothing hcurrent hflows =>
    rw [resolveOn_of_no_current hcurrent]
    refine congrArg Except.ok (List.find?_eq_none.mpr fun f hf haccepts ↦ ?_)
    exact hflows f hf ((Eligibility.accepts_iff hnow).mp haccepts)

theorem resolveOn_eq_iff (hnow : now.isLeapSecond = false) {flows : List Flow}
    {answer : Except EnrollError (Option Flow)} :
    resolveOn opts now flows = answer ↔ opts.Prescribed now flows answer :=
  ⟨fun h ↦ h ▸ prescribed_resolveOn hnow flows, resolveOn_of_prescribed hnow⟩

/-- Outside leap seconds the answer of a resolution is the one that the rule prescribes for the
shelf of the workspace. After a session on a store of tables there may be a flow that cannot be
read: its open data were written but do not read back, as those in which an object begins with the
reserved name. A resolution that comes across it passes the error of the store on as it is. -/
theorem resolve_as_prescribed (workspace : String) (opts : EnrollmentOpts) {now : Moment}
    (hnow : now.isLeapSecond = false) :
    (∀ (s : ListStore) answer, resolve workspace opts now s = answer ↔
      opts.Prescribed now (s.shelf workspace) answer) ∧
    ∀ requests, let t : TableStore := Session.after Store.empty requests
      (∀ answer, resolve workspace opts now t = answer ↔
        opts.Prescribed now (t.shelf workspace) answer) ∨
      t.Illegible workspace ∧ resolve workspace opts now t = .error (.store .unreadableRow) := by
  refine ⟨fun s answer ↦ ?_, fun requests ↦ ?_⟩
  · rcases resolve_cases (s := s) trivial workspace opts now with hanswer | ⟨hillegible, -⟩
    · rw [hanswer]
      exact resolveOn_eq_iff hnow
    · exact hillegible.elim
  · intro t
    have ht : t.Sound := Session.after_keeps TableStore.Sound.kept TableStore.Sound.empty requests
    refine (resolve_cases (s := t) ht workspace opts now).imp_left fun hanswer answer ↦ ?_
    rw [hanswer]
    exact resolveOn_eq_iff hnow

/-- A flow for users who have been there for thirty days. -/
def forVeterans : Flow :=
  { Desk.draft with
    live := true, opts := { targeting := .ofRules [.elapsedDays 30, .userSegment "pro"] } }

def forNamed : Flow :=
  { forVeterans with id := ⟨8⟩, opts := { targeting := .ofRules [.userId "u"] } }

/-- Eight days after the sign-up only the flow that names the user is offered. -/
theorem resolve_as_prescribed_named :
    let opts : EnrollmentOpts :=
      { signUpTimestamp := some 1703376000, userSegment := some "pro", userId := some "u" }
    Desk.draft.createdAt.isLeapSecond = false ∧
    opts.Prescribed Desk.draft.createdAt [forVeterans, forNamed] (.ok (some forNamed)) ∧
    ¬ opts.Prescribed Desk.draft.createdAt [forVeterans] (.ok (some forVeterans)) := by
  intro opts
  have hnow : Desk.draft.createdAt.isLeapSecond = false := by decide
  have hlists := (resolve_as_prescribed "w" opts hnow).1
  refine ⟨hnow, (hlists { active := [forVeterans, forNamed] } _).mp rfl, fun hoffer ↦ ?_⟩
  have hanswer := (hlists { active := [forVeterans] } _).mpr hoffer
  have hnothing : resolve "w" opts Desk.draft.createdAt ({ active := [forVeterans] } : ListStore) =
      .ok none := rfl
  exact absurd (hnothing.symm.trans hanswer) (by simp)

end Enrollment

end GuidedTours
