import GuidedTours.Proofs.Attempts
import GuidedTours.Proofs.StepTree.Ancestor
import GuidedTours.Proofs.StepTree.Edit
import GuidedTours.StepTree.Request

/-!
Requests as work on a list that is changed in place. A request is a sequence of reads, checks and
writes, and a failure keeps whatever was written before it. Every request comes to what it does when
it is performed at once, so in each of them all checks stand before the first write: one that fails,
and a deletion that finds no step, leaves the list as it was. Replacing a step is refused for three
reasons, which are told here without the bound on the way up.
-/

set_option autoImplicit false

namespace GuidedTours

open StepTree

/-- Work on a step list in place. -/
abbrev StepWork : Type → Type := ExceptT StepFailure (StateM (List Step))

variable {α β : Type} {steps : List Step} {id : String} {data : StepData} {parent : Option String}

namespace StepWork

/-- The answer or the failure, and the list that is left. -/
def runOn (work : StepWork α) (steps : List Step) : Except StepFailure α × List Step :=
  StateT.run (ExceptT.run work) steps

@[simp] theorem runOn_pure (a : α) : (pure a : StepWork α).runOn steps = (.ok a, steps) := rfl

@[simp] theorem runOn_throw (e : StepFailure) :
    (throw e : StepWork α).runOn steps = (.error e, steps) := rfl

@[simp] theorem runOn_get_bind (next : List Step → StepWork α) :
    (get >>= next).runOn steps = (next steps).runOn steps := rfl

@[simp] theorem runOn_modify_bind (f : List Step → List Step) (next : Unit → StepWork α) :
    ((modify f : StepWork Unit) >>= next).runOn steps = (next ()).runOn (f steps) := rfl

/-- A failure ends the work, and the list stays as it has become. -/
theorem runOn_bind (work : StepWork α) (next : α → StepWork β) :
    (work >>= next).runOn steps = match work.runOn steps with
      | (.ok a, rest) => (next a).runOn rest
      | (.error e, rest) => (.error e, rest) := by
  simp only [runOn, ExceptT.run_bind, StateT.run_bind]
  obtain ⟨answer, rest⟩ := StateT.run (ExceptT.run work) steps
  cases answer <;> rfl

/-- A check reads the list and may fail. -/
def check (test : List Step → Except StepError Unit) : StepWork Unit := do
  match test (← get) with
  | .error e => throw (.edit e)
  | .ok () => return

theorem runOn_check (test : List Step → Except StepError Unit) :
    (check test).runOn steps = ((test steps).mapError .edit, steps) := by
  rw [check, runOn_get_bind]
  cases test steps with
  | error e => exact runOn_throw (.edit e)
  | ok _ => exact runOn_pure ()

/-- The data are written before the parent. -/
def replace (id : String) (data : StepData) (parent : Option String) : StepWork StepAnswer := do
  match find? (← get) id with
  | none => throw (.edit (.unknownStep id))
  | some current =>
    match (named? parent).filter (current.parent? ≠ some ·) with
    | none => modify (modifyFirst (·.id = id) fun s ↦ { s with data })
    | some parent =>
      check fun steps ↦ checkMove steps id parent
      modify (modifyFirst (·.id = id) fun s ↦ { s with data })
      modify (modifyFirst (·.id = id) (Step.setParent (some parent)))
    return .done

/-- The sibling is moved before the new step is appended. -/
def insert (incoming : Step) : StepWork StepAnswer := do
  let steps ← get
  match incoming.parent?.filter fun parent ↦ (find? steps parent).isNone with
  | some parent => throw (.edit (.unknownParent parent))
  | none =>
    modify (modifyFirst (·.parent? = incoming.parent?) (Step.setParent (some incoming.id)))
    modify (· ++ [incoming])
    return .done

def upsert (incoming : Step) : StepWork StepAnswer := do
  if Text.isBlankText incoming.id then throw (.edit .blankId)
  else if (find? (← get) incoming.id).isSome then
    replace incoming.id incoming.data incoming.parent?
  else insert incoming

/-- The step is taken out before its children are moved. -/
def delete (policy : DeletePolicy) (id : String) : StepWork StepAnswer := do
  match find? (← get) id with
  | none => return .removed none
  | some removed =>
    modify (List.eraseP (·.id = id))
    match policy with
    | .reconnectFirst =>
      modify (modifyFirst (·.parent? = some id) (Step.setParent removed.parent?))
    | .reconnectAll =>
      modify (List.map fun s ↦ if s.parent? = some id then s.setParent removed.parent? else s)
    return .removed (some removed)

/-- Before the walk every step is final. -/
def flagged (s : Step) : Step :=
  { s with opts := { s.opts with isSource := s.parent?.isNone, isFinal := true } }

/-- The flags are written before the walk, which clears some of them and hands segments down. -/
def outline : StepWork StepAnswer := do
  let steps ← get
  match firstRepeat [] (steps.map Step.id) with
  | some id => throw (.tree (.repeatedId id))
  | none =>
    if steps = [] then return .outline {}
    else
      match root steps with
      | .error e => throw (.tree e)
      | .ok top =>
        modify (List.map flagged)
        let visits := visitsFrom steps top
        let relations := relationsOf steps visits
        modify (List.map (mark relations visits))
        let unreachable := (steps.map Step.id).filter fun id ↦ !visits.any (·.id = id)
        return .outline ⟨some top.id, relations, unreachable⟩

theorem runOn_replace (id : String) (data : StepData) (parent : Option String) :
    (replace id data parent).runOn steps =
      StepRequest.perform steps (.replace id parent data) := by
  rw [replace, runOn_get_bind, StepRequest.perform, StepTree.replace]
  cases find? steps id with
  | none => rfl
  | some current =>
    dsimp only
    cases (named? parent).filter (current.parent? ≠ some ·) with
    | none => rfl
    | some p =>
      dsimp only
      rw [runOn_bind, runOn_check]
      cases checkMove steps id p with
      | error e => rfl
      | ok _ =>
        have hid : ∀ s : Step, decide (s.id = id) → decide (({ s with data } : Step).id = id) :=
          fun _ h ↦ h
        dsimp only [Except.mapError]
        rw [runOn_modify_bind, runOn_modify_bind, runOn_pure, modifyFirst_modifyFirst_self hid]
        rfl

theorem runOn_insert (incoming : Step) :
    (insert incoming).runOn steps =
      StepRequest.edited steps (StepTree.insert steps incoming) := by
  rw [insert, runOn_get_bind, StepTree.insert]
  cases incoming.parent?.filter fun parent ↦ (find? steps parent).isNone with
  | some p => rfl
  | none => rfl

theorem runOn_upsert (incoming : Step) :
    (upsert incoming).runOn steps = StepRequest.perform steps (.upsert incoming) := by
  rw [upsert, StepRequest.perform, StepTree.upsert]
  split
  next => rfl
  next =>
    rw [runOn_get_bind]
    split
    next => exact runOn_replace _ _ _
    next => exact runOn_insert incoming

theorem runOn_delete (policy : DeletePolicy) (id : String) :
    (delete policy id).runOn steps = StepRequest.perform steps (.delete policy id) := by
  rw [delete, runOn_get_bind, StepRequest.perform, StepTree.delete]
  cases find? steps id with
  | none => rfl
  | some removed => cases policy <;> rfl

theorem runOn_outline : outline.runOn steps = StepRequest.perform steps .outline := by
  rw [outline, runOn_get_bind, StepRequest.perform, StepTree.outline]
  cases firstRepeat [] (steps.map Step.id) with
  | some id => rfl
  | none =>
    dsimp only
    split
    next hempty => rw [hempty]; rfl
    next =>
      cases root steps with
      | error e => rfl
      | ok top =>
        dsimp only
        rw [runOn_modify_bind, runOn_modify_bind, runOn_pure, List.map_map]
        rfl

end StepWork

namespace StepRequest

def inPlace : StepRequest → StepWork StepAnswer
  | .upsert step => StepWork.upsert step
  | .replace id parent data => StepWork.replace id data parent
  | .delete policy id => StepWork.delete policy id
  | .outline => StepWork.outline

/-- In place or at once, a request gives the same answer and leaves the same list. -/
theorem runOn_inPlace (request : StepRequest) :
    request.inPlace.runOn steps = request.perform steps := by
  cases request with
  | upsert step => exact StepWork.runOn_upsert step
  | replace id parent data => exact StepWork.runOn_replace id data parent
  | delete policy id => exact StepWork.runOn_delete policy id
  | outline => exact StepWork.runOn_outline

/-- A request comes to nothing if it fails or is a deletion that finds no step. -/
def Unsuccessful : Except StepFailure StepAnswer → Prop
  | .error _ => True
  | .ok (.removed none) => True
  | .ok _ => False

theorem edited_of_unsuccessful {result : Except StepError (List Step)}
    (h : Unsuccessful (edited steps result).1) : (edited steps result).2 = steps := by
  cases result with
  | error e => rfl
  | ok rest => exact h.elim

theorem perform_of_unsuccessful {request : StepRequest}
    (h : Unsuccessful (request.perform steps).1) : (request.perform steps).2 = steps := by
  cases request with
  | upsert step => exact edited_of_unsuccessful h
  | replace id parent data => exact edited_of_unsuccessful h
  | delete policy id =>
    rw [perform] at h ⊢
    cases hdelete : StepTree.delete policy id steps with
    | none => rfl
    | some found =>
      rw [hdelete] at h
      exact h.elim
  | outline =>
    rw [perform] at h ⊢
    cases houtline : StepTree.outline steps with
    | error e => rfl
    | ok found =>
      rw [houtline] at h
      exact h.elim

end StepRequest

namespace StepTree

/-- A parent is given that is not empty and not the present one. -/
structure AsksToMove (steps : List Step) (id : String) (parent : Option String) (p : String) :
    Prop where
  given : parent = some p
  nonempty : p ≠ ""
  differs : ∃ s, find? steps id = some s ∧ s.parent? ≠ some p

/-- Why a step is not replaced: it is not there, or it is to move below a step that is not there, or
below one from which some way up, however long, leads to it. -/
inductive Unreplaceable (steps : List Step) (id : String) (parent : Option String) :
    StepError → Prop
  | unknownStep (h : ∀ s ∈ steps, s.id ≠ id) : Unreplaceable steps id parent (.unknownStep id)
  | unknownParent {p : String} (hmove : AsksToMove steps id parent p)
    (h : ∀ s ∈ steps, s.id ≠ p) : Unreplaceable steps id parent (.unknownParent p)
  | underItself {p : String} {path : List String} (hmove : AsksToMove steps id parent p)
    (hknown : ∃ s ∈ steps, s.id = p) (hway : Way steps id p path) :
    Unreplaceable steps id parent (.underItself id p)

theorem asksToMove_iff {current : Step} (hcurrent : find? steps id = some current) {p : String} :
    AsksToMove steps id parent p ↔
      (named? parent).filter (current.parent? ≠ some ·) = some p := by
  simp only [Option.filter_eq_some_iff, named?_eq_some_iff, decide_eq_true_eq]
  constructor
  · intro h
    obtain ⟨hgiven, hnonempty, s, hs, hdiffers⟩ := h
    obtain rfl : current = s := Option.some.inj (hcurrent.symm.trans hs)
    exact ⟨⟨hgiven, hnonempty⟩, hdiffers⟩
  · intro h
    obtain ⟨⟨hgiven, hnonempty⟩, hdiffers⟩ := h
    exact ⟨hgiven, hnonempty, current, hcurrent, hdiffers⟩

theorem checkMove_eq_error_iff {p : String} {e : StepError} :
    checkMove steps id p = .error e ↔
      (∀ s ∈ steps, s.id ≠ p) ∧ e = .unknownParent p ∨
      (∃ s ∈ steps, s.id = p) ∧ (∃ path, Way steps id p path) ∧ e = .underItself id p := by
  rw [← find?_eq_none_iff, ← find?_isSome_iff, ← isAncestor_iff_exists_way, checkMove]
  cases hfind : find? steps p with
  | none => simp [@eq_comm _ e]
  | some s =>
    by_cases hancestor : isAncestor steps id p
    · simp [hancestor, @eq_comm _ e]
    · simp [hancestor]

theorem replace_eq_error_iff {e : StepError} :
    replace steps id data parent = .error e ↔ Unreplaceable steps id parent e := by
  unfold replace
  cases hfind : find? steps id with
  | none =>
    constructor
    · intro h
      exact Except.error.inj h ▸ .unknownStep (find?_eq_none_iff.mp hfind)
    · intro h
      cases h with
      | unknownStep => rfl
      | unknownParent hmove | underItself hmove =>
        obtain ⟨s, hs, -⟩ := hmove.differs
        simp [hfind] at hs
  | some current =>
    have hknown : ¬ ∀ s ∈ steps, s.id ≠ id := by
      rw [← find?_eq_none_iff, hfind]
      exact Option.some_ne_none current
    dsimp only
    cases hmoved : (named? parent).filter (current.parent? ≠ some ·) with
    | none =>
      have hstays : ∀ p, ¬ AsksToMove steps id parent p := by
        intro p hmove
        rw [asksToMove_iff hfind, hmoved] at hmove
        simp at hmove
      refine iff_of_false (by simp) fun h ↦ ?_
      cases h with
      | unknownStep h => exact hknown h
      | unknownParent hmove | underItself hmove => exact hstays _ hmove
    | some p =>
      have hmove : ∀ q, AsksToMove steps id parent q ↔ p = q := by
        intro q
        rw [asksToMove_iff hfind, hmoved, Option.some_inj]
      dsimp only
      rw [map_eq_error_iff, checkMove_eq_error_iff]
      constructor
      · intro h
        rcases h with ⟨hnone, rfl⟩ | ⟨hparent, ⟨path, hway⟩, rfl⟩
        · exact .unknownParent ((hmove p).mpr rfl) hnone
        · exact .underItself ((hmove p).mpr rfl) hparent hway
      · intro h
        cases h with
        | unknownStep h => exact absurd h hknown
        | unknownParent hq hnone =>
          obtain rfl := (hmove _).mp hq
          exact .inl ⟨hnone, rfl⟩
        | underItself hq hparent hway =>
          obtain rfl := (hmove _).mp hq
          exact .inr ⟨hparent, ⟨_, hway⟩, rfl⟩

/-- Work in place comes to what the request does at once, so what comes to nothing leaves the steps
alone. A replacement fails for exactly the reasons told above. -/
theorem unsuccessful_work_leaves_steps (steps : List Step) :
    (∀ request : StepRequest, request.inPlace.runOn steps = request.perform steps ∧
      (StepRequest.Unsuccessful (request.inPlace.runOn steps).1 →
        (request.inPlace.runOn steps).2 = steps)) ∧
    ∀ id parent data failure,
      ((StepRequest.replace id parent data).inPlace.runOn steps).1 = .error failure ↔
        ∃ e, failure = .edit e ∧ Unreplaceable steps id parent e := by
  refine ⟨fun request ↦ ⟨request.runOn_inPlace, fun h ↦ ?_⟩, fun id parent data failure ↦ ?_⟩
  · rw [request.runOn_inPlace] at h ⊢
    exact StepRequest.perform_of_unsuccessful h
  · have hfails : ∀ e, Unreplaceable steps id parent e ↔ replace steps id data parent = .error e :=
      fun _ ↦ replace_eq_error_iff.symm
    rw [StepRequest.runOn_inPlace, StepRequest.perform]
    simp only [hfails]
    cases replace steps id data parent with
    | error e => simp [StepRequest.edited, eq_comm]
    | ok rest => simp [StepRequest.edited]

/-- A chain, an id that repeats, and a step below itself. -/
def knotted : List Step := [
  { id := "a" }, { id := "b", parentId := some "a" }, { id := "c", parentId := some "b" },
  { id := "b", parentId := some "ghost" }, { id := "d", parentId := some "d" }]

theorem unsuccessful_work_leaves_steps_knotted :
    Unreplaceable knotted "a" (some "c") (.underItself "a" "c") ∧
      ((StepRequest.replace "a" (some "c") {}).inPlace.runOn knotted).2 = knotted ∧
      (StepRequest.outline.inPlace.runOn knotted).1 = .error (.tree (.repeatedId "b")) ∧
      (StepRequest.outline.inPlace.runOn knotted).2 = knotted := by
  obtain ⟨hwork, hreplace⟩ := unsuccessful_work_leaves_steps knotted
  obtain ⟨e, heq, hrefused⟩ := (hreplace "a" (some "c") {} (.edit (.underItself "a" "c"))).mp rfl
  rw [← StepFailure.edit.inj heq] at hrefused
  exact ⟨hrefused, (hwork _).2 trivial, rfl, (hwork _).2 trivial⟩

end StepTree

end GuidedTours
