import GuidedTours.Proofs.Store.UserRecords

/-!
The user states of a store stand apart from all else in it. They are a list of their own, at which
only the operations on user states look; every other operation gives the same answers and does the
same to the rest of the store whatever the list is.
-/

set_option autoImplicit false

namespace GuidedTours

/-- A store with a list of user states. -/
class UserList (σ : Type) where
  users : σ → List UserState
  withUsers (users : List UserState) (s : σ) : σ

export UserList (users withUsers)

section Ignores

variable {σ α β : Type} [UserList σ]

/-- The operation has nothing to do with user states. -/
def Ignores (op : σ → α × σ) : Prop :=
  ∀ others s, op (withUsers others s) = ((op s).1, withUsers others (op s).2)

theorem ignores_get {get : σ → α} (hget : ∀ others s, get (withUsers others s) = get s) :
    Ignores fun s ↦ (get s, s) :=
  fun others s ↦ congrArg (fun answer ↦ (answer, withUsers others s)) (hget others s)

theorem ignores_answer (answer : α) : Ignores fun s : σ ↦ (answer, s) := fun _ _ ↦ rfl

/-- What is done may depend on what is read elsewhere. -/
theorem Ignores.of_read {op : σ → α × σ} {g : β → σ → α × σ} (get : σ → β)
    (hget : ∀ others s, get (withUsers others s) = get s) (hop : ∀ s, op s = g (get s) s)
    (h : ∀ found, Ignores (g found)) : Ignores op := by
  intro others s
  rw [hop, hop, hget]
  exact h (get s) others s

theorem Ignores.map {op : σ → α × σ} (h : Ignores op) (f : α → β) :
    Ignores fun s ↦ (f (op s).1, (op s).2) := by
  intro others s
  simp only [h others s]

end Ignores

/-- A store in which everything but the operations on user states ignores them. -/
class DetachedUsers (σ : Type) [Store σ] [UserList σ] : Prop where
  withUsers_users (s : σ) : withUsers (users s) s = s
  users_withUsers (others : List UserState) (s : σ) : users (withUsers others s) = others
  withUsers_withUsers (others more : List UserState) (s : σ) :
    withUsers others (withUsers more s) = withUsers others s
  getUserState_eq (workspace user : String) (s : σ) :
    Store.getUserState workspace user s = (users s).find? (UserState.isOf workspace user)
  putUserState_eq (state : UserState) (s : σ) :
    Store.putUserState state s = withUsers (state.put (users s)) s
  getFlow_withUsers (workspace : String) (id : FlowId) (others : List UserState) (s : σ) :
    Store.getFlow workspace id (withUsers others s) = Store.getFlow workspace id s
  listFlows_withUsers (workspace : String) (others : List UserState) (s : σ) :
    Store.listFlows workspace (withUsers others s) = Store.listFlows workspace s
  listLiveFlows_withUsers (workspace : String) (others : List UserState) (s : σ) :
    Store.listLiveFlows workspace (withUsers others s) = Store.listLiveFlows workspace s
  listArchivedFlows_withUsers (workspace : String) (others : List UserState) (s : σ) :
    Store.listArchivedFlows workspace (withUsers others s) = Store.listArchivedFlows workspace s
  listEvents_withUsers (workspace : String) (id : FlowId) (others : List UserState) (s : σ) :
    Store.listEvents workspace id (withUsers others s) = Store.listEvents workspace id s
  insertFlow (f : Flow) : Ignores (σ := σ) (Store.insertFlow f)
  saveFlow (f : Flow) (expected : Option UInt64) : Ignores (σ := σ) (Store.saveFlow f expected)
  archiveFlow (workspace : String) (id : FlowId) :
    Ignores (σ := σ) (Store.archiveFlow workspace id)
  restoreFlow (workspace : String) (id : FlowId) :
    Ignores (σ := σ) (Store.restoreFlow workspace id)
  recordEvents (events : List TrackedEvent) :
    Ignores fun s : σ ↦ ((), Store.recordEvents events s)

section Detached

variable {σ α : Type} [Store σ] [UserList σ] [DetachedUsers σ]

theorem Ignores.users_eq {op : σ → α × σ} (h : Ignores op) (s : σ) :
    users (op s).2 = users s := by
  have hsame := congrArg Prod.snd (h (users s) s)
  rw [DetachedUsers.withUsers_users] at hsame
  rw [hsame, DetachedUsers.users_withUsers]

theorem getUserState_withUsers (workspace user : String) (others : List UserState) (s : σ) :
    Store.getUserState workspace user (withUsers others s) =
      others.find? (UserState.isOf workspace user) := by
  rw [DetachedUsers.getUserState_eq, DetachedUsers.users_withUsers]

end Detached

namespace ListStore

instance : UserList ListStore where
  users := users
  withUsers users s := { s with users }

instance : DetachedUsers ListStore where
  withUsers_users _ := rfl
  users_withUsers _ _ := rfl
  withUsers_withUsers _ _ _ := rfl
  getUserState_eq _ _ _ := rfl
  putUserState_eq _ _ := rfl
  getFlow_withUsers _ _ _ _ := rfl
  listFlows_withUsers _ _ _ := rfl
  listLiveFlows_withUsers _ _ _ := rfl
  listArchivedFlows_withUsers _ _ _ := rfl
  listEvents_withUsers _ _ _ _ := rfl
  insertFlow f others s := by
    simp only [Store.insertFlow, insertFlow, withUsers]
    split <;> rfl
  saveFlow f expected others s := by
    simp only [Store.saveFlow, saveFlow, withUsers]
    split
    · rfl
    · split <;> rfl
  archiveFlow workspace id others s := by
    simp only [Store.archiveFlow, archiveFlow, withUsers]
    split <;> rfl
  restoreFlow workspace id others s := by
    simp only [Store.restoreFlow, restoreFlow, withUsers]
    split <;> rfl
  recordEvents _ _ _ := rfl

end ListStore

namespace TableStore

instance : UserList TableStore where
  users := users
  withUsers users s := { s with users }

instance : DetachedUsers TableStore where
  withUsers_users _ := rfl
  users_withUsers _ _ := rfl
  withUsers_withUsers _ _ _ := rfl
  getUserState_eq _ _ _ := rfl
  putUserState_eq _ _ := rfl
  getFlow_withUsers _ _ _ _ := rfl
  listFlows_withUsers _ _ _ := rfl
  listLiveFlows_withUsers _ _ _ := rfl
  listArchivedFlows_withUsers _ _ _ := rfl
  listEvents_withUsers _ _ _ _ := rfl
  insertFlow f others s := by
    simp only [Store.insertFlow, insertRow, withUsers]
    split <;> rfl
  saveFlow f expected others s := by
    simp only [Store.saveFlow, saveFlow, withUsers]
    split
    · rfl
    · split <;> rfl
  archiveFlow workspace id others s := by
    simp only [Store.archiveFlow, archiveFlow, getFlow, withUsers]
    split
    · rfl
    · split <;> rfl
  restoreFlow workspace id others s := by
    simp only [Store.restoreFlow, restoreFlow, withUsers]
    cases s.archived.find? (ArchivedRow.owns workspace id) with
    | none => rfl
    | some row =>
      cases hread : row.read with
      | error e => simp only [hread]
      | ok f =>
        simp only [hread, insertRow]
        by_cases htaken : s.active.any (·.id = id)
        · simp only [if_pos htaken]
        · simp only [if_neg htaken]
  recordEvents _ _ _ := rfl

end TableStore

end GuidedTours
