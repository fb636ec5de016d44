import GuidedTours.Proofs.Store.Listing
import GuidedTours.Proofs.Store.Runs
import GuidedTours.Proofs.Store.Tables

/-!
The user states in a store. What is put for a user is what is found for that user, the states of
all others stay as they were, and the operations on flows touch none of them.
-/

set_option autoImplicit false

namespace GuidedTours

variable {workspace user : String} {state : UserState} {states : List UserState}

namespace UserState

theorem isOf_iff :
    state.isOf workspace user ↔ state.workspace = workspace ∧ state.user = user := by
  simp [isOf]

theorem find?_put (workspace user : String) (state : UserState) (states : List UserState) :
    (state.put states).find? (isOf workspace user) =
      if state.isOf workspace user then some state else states.find? (isOf workspace user) := by
  unfold put
  by_cases hself : state.isOf workspace user
  · obtain ⟨rfl, rfl⟩ := isOf_iff.mp hself
    rw [if_pos hself]
    split
    next hany =>
      obtain ⟨old, hold⟩ := Option.isSome_iff_exists.mp
        (List.find?_isSome.mpr (List.any_eq_true.mp hany))
      rw [find?_modifyFirst_self fun _ _ ↦ hself, hold, Option.map_some]
    next hnone =>
      have habsent : states.find? (isOf state.workspace state.user) = none := by
        simpa using hnone
      rw [List.find?_append, habsent, Option.none_or, List.find?_singleton, if_pos hself]
  · rw [if_neg hself]
    split
    next =>
      refine find?_modifyFirst_of_forall (fun old hold hfound ↦ ?_) fun _ _ ↦ hself
      obtain ⟨hworkspace, huser⟩ := isOf_iff.mp hold
      obtain ⟨rfl, rfl⟩ := isOf_iff.mp hfound
      exact hself (isOf_iff.mpr ⟨hworkspace.symm, huser.symm⟩)
    next => rw [List.find?_append, List.find?_singleton, if_neg hself, Option.or_none]

/-- Putting a state that is there already changes nothing. -/
theorem put_of_find? (h : states.find? (isOf state.workspace state.user) = some state) :
    state.put states = states := by
  rw [put, if_pos (List.any_eq_true.mpr ⟨state, List.mem_of_find?_eq_some h, List.find?_some h⟩),
    modifyFirst_of_find? h rfl]

end UserState

/-- A store that keeps one state for each user of a workspace. -/
class UserRecords (σ : Type) [Store σ] where
  getUserState_empty (workspace user : String) :
    Store.getUserState workspace user (Store.empty : σ) = none
  isOf_getUserState {workspace user : String} {s : σ} {state : UserState}
    (h : Store.getUserState workspace user s = some state) : state.isOf workspace user
  getUserState_putUserState (workspace user : String) (state : UserState) (s : σ) :
    Store.getUserState workspace user (Store.putUserState state s) =
      if state.isOf workspace user then some state else Store.getUserState workspace user s
  putUserState_of_get {state : UserState} {s : σ}
    (h : Store.getUserState state.workspace state.user s = some state) :
    Store.putUserState state s = s
  getUserState_recordEvents (workspace user : String) (events : List TrackedEvent) (s : σ) :
    Store.getUserState workspace user (Store.recordEvents events s) =
      Store.getUserState workspace user s
  getUserState_kept (workspace user : String) (found : Option UserState) :
    KeptByFlows fun s : σ ↦ Store.getUserState workspace user s = found

/-- Operations on flows touch neither user states nor events. -/
theorem ListStore.records_kept (P : List UserState → List TrackedEvent → Prop) :
    KeptByFlows fun s : ListStore ↦ P s.users s.events where
  insertFlow f s hs := by
    rcases insertFlow_cases f s with ⟨-, heq⟩ | ⟨-, heq⟩ <;>
      exact (congrArg (fun x ↦ P x.2.users x.2.events) heq).mpr hs
  saveFlow f expected s hs := by
    rcases saveFlow_cases f expected s with ⟨-, heq⟩ | ⟨stored, -, ⟨e, -, -, heq⟩ | ⟨-, heq⟩⟩ <;>
      exact (congrArg (fun x ↦ P x.2.users x.2.events) heq).mpr hs
  archiveFlow workspace id s hs := by
    rcases archiveFlow_cases workspace id s with ⟨-, heq⟩ | ⟨f, -, heq⟩ <;>
      exact (congrArg (fun x ↦ P x.2.users x.2.events) heq).mpr hs
  restoreFlow workspace id s hs := by
    rcases restoreFlow_cases workspace id s with ⟨-, heq⟩ | ⟨f, -, heq⟩ <;>
      exact (congrArg (fun x ↦ P x.2.users x.2.events) heq).mpr hs

theorem TableStore.records_kept (P : List UserState → List TrackedEvent → Prop) :
    KeptByFlows fun s : TableStore ↦ P s.users s.events where
  insertFlow f s hs := by
    rcases insertRow_cases (.ofFlow f.workspace f) s with ⟨-, heq⟩ | ⟨-, heq⟩ <;>
      exact (congrArg (fun x ↦ P x.2.users x.2.events) heq).mpr hs
  saveFlow f expected s hs := by
    rcases saveFlow_cases f expected s with ⟨e, heq⟩ | ⟨row, -, -, heq⟩ <;>
      exact (congrArg (fun x ↦ P x.2.users x.2.events) heq).mpr hs
  archiveFlow workspace id s hs := by
    rcases archiveFlow_cases workspace id s with ⟨e, heq⟩ | ⟨f, -, -, heq⟩ <;>
      exact (congrArg (fun x ↦ P x.2.users x.2.events) heq).mpr hs
  restoreFlow workspace id s hs := by
    rcases restoreFlow_cases workspace id s with ⟨e, heq⟩ | ⟨row, f, -, -, -, heq⟩ <;>
      exact (congrArg (fun x ↦ P x.2.users x.2.events) heq).mpr hs

instance : UserRecords ListStore where
  getUserState_empty _ _ := rfl
  isOf_getUserState h := List.find?_some h
  getUserState_putUserState workspace user state s :=
    UserState.find?_put workspace user state s.users
  putUserState_of_get {_ s} h := congrArg (fun users ↦ { s with users }) (UserState.put_of_find? h)
  getUserState_recordEvents _ _ _ _ := rfl
  getUserState_kept workspace user found :=
    ListStore.records_kept fun users _ ↦ users.find? (UserState.isOf workspace user) = found

instance : UserRecords TableStore where
  getUserState_empty _ _ := rfl
  isOf_getUserState h := List.find?_some h
  getUserState_putUserState workspace user state s :=
    UserState.find?_put workspace user state s.users
  putUserState_of_get {_ s} h := congrArg (fun users ↦ { s with users }) (UserState.put_of_find? h)
  getUserState_recordEvents _ _ _ _ := rfl
  getUserState_kept workspace user found :=
    TableStore.records_kept fun users _ ↦ users.find? (UserState.isOf workspace user) = found

end GuidedTours
