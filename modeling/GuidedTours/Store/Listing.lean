import GuidedTours.Store

/-!
A store that keeps its flows in two lists, the active and the archived ones. Only an insertion asks
whether an id is taken, and only among the active flows; where several active flows have one id the
first in the list is meant.
-/

set_option autoImplicit false

namespace GuidedTours

structure ListStore where
  active : List Flow := []
  archived : List Flow := []
  users : List UserState := []
  events : List TrackedEvent := []

namespace ListStore

def owns (workspace : String) (id : FlowId) (f : Flow) : Bool :=
  f.id = id && f.workspace = workspace

def find? (flows : List Flow) (workspace : String) (id : FlowId) : Option Flow :=
  flows.find? (owns workspace id)

def insertFlow (flow : Flow) (s : ListStore) : Except StoreError Unit × ListStore :=
  if s.active.any (·.id = flow.id) then (.error (.flowExists flow.id), s)
  else (.ok (), { s with active := s.active ++ [flow] })

def getFlow (workspace : String) (id : FlowId) (s : ListStore) : Except StoreError Flow :=
  match find? s.active workspace id with
  | some flow => .ok flow
  | none => .error (.flowNotFound id)

def saveFlow (flow : Flow) (expected : Option UInt64) (s : ListStore) :
    Except StoreError UInt64 × ListStore :=
  match find? s.active flow.workspace flow.id with
  | none => (.error (.flowNotFound flow.id), s)
  | some stored =>
    match expected.filter (· ≠ stored.revision) with
    | some expected => (.error (.conflict flow.id expected stored.revision), s)
    | none =>
      let revision := stored.revision + 1
      (.ok revision, { s with
        active := modifyFirst (owns flow.workspace flow.id) (fun _ ↦ { flow with revision })
          s.active })

def archiveFlow (workspace : String) (id : FlowId) (s : ListStore) :
    Except StoreError Unit × ListStore :=
  match find? s.active workspace id with
  | none => (.error (.flowNotFound id), s)
  | some flow =>
    (.ok (), { s with
      active := s.active.eraseP (owns workspace id), archived := s.archived ++ [flow] })

def restoreFlow (workspace : String) (id : FlowId) (s : ListStore) :
    Except StoreError Unit × ListStore :=
  match find? s.archived workspace id with
  | none => (.error (.flowNotFound id), s)
  | some flow =>
    (.ok (), { s with
      archived := s.archived.eraseP (owns workspace id), active := s.active ++ [flow] })

instance : Store ListStore where
  empty := {}
  insertFlow := insertFlow
  getFlow := getFlow
  listFlows workspace s := .ok (s.active.filter (·.workspace = workspace))
  listLiveFlows workspace s := .ok (s.active.filter fun f ↦ f.workspace = workspace && f.live)
  saveFlow := saveFlow
  archiveFlow := archiveFlow
  listArchivedFlows workspace s := .ok (s.archived.filter (·.workspace = workspace))
  restoreFlow := restoreFlow
  getUserState workspace user s := s.users.find? (UserState.isOf workspace user)
  putUserState state s := { s with users := state.put s.users }
  recordEvents events s := { s with events := s.events ++ events }
  listEvents workspace id s :=
    s.events.filter fun e ↦ e.workspace = workspace && e.entity = id.text

end ListStore

end GuidedTours
