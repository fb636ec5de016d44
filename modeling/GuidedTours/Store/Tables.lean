import GuidedTours.Json.Reread
import GuidedTours.Store

/-!
A store that keeps its flows as rows of two tables, the active and the archived ones, in the order
of their insertion. An id stands at most once in each table, whatever the workspace. A row of the
active table repeats the live flag and the revision in columns of their own; the revision of the
document in it is not kept up to date and is replaced on reading.

A document is stored as a text. It reads back as it was written except for its open data, in which
doubles may change and whose lists and objects must not be nested too deep. Moving a flow from one
table to the other reads its row and writes what was read.

The revision column holds a signed number of 64 bits. One more than the greatest of them makes it a
number that cannot be read any longer, and the row with it.
-/

set_option autoImplicit false

namespace GuidedTours

inductive RevisionColumn where
  | whole (n : Int64)
  | overflown
deriving DecidableEq

namespace RevisionColumn

def ofRevision (n : UInt64) : RevisionColumn := .whole n.toInt64

def next : RevisionColumn → RevisionColumn
  | .whole n => if n = Int64.maxValue then .overflown else .whole (n + 1)
  | .overflown => .overflown

def read : RevisionColumn → Except StoreError UInt64
  | .whole n => .ok n.toUInt64
  | .overflown => .error .unreadableRow

end RevisionColumn

/-- What reading a stored document gives. Its open data stand in three objects: the flow, its
options, and the trigger or the effect. -/
def Flow.reread? (f : Flow) : Option Flow := do
  let trigger ← f.opts.trigger.data.reread? 3
  let effect ← f.opts.finishEffect.data.reread? 3
  return { f with
    opts := { f.opts with
      trigger := { f.opts.trigger with data := trigger }
      finishEffect := { f.opts.finishEffect with data := effect } } }

def Flow.readBack (f : Flow) : Except StoreError Flow :=
  match f.reread? with
  | some f => .ok f
  | none => .error .unreadableRow

/-- Every row holds its document as it was written. -/
structure FlowRow where
  id : FlowId
  workspace : String
  live : Bool
  revision : RevisionColumn
  document : Flow

structure ArchivedRow where
  id : FlowId
  workspace : String
  document : Flow

structure TableStore where
  active : List FlowRow := []
  archived : List ArchivedRow := []
  users : List UserState := []
  events : List TrackedEvent := []

namespace FlowRow

def ofFlow (workspace : String) (f : Flow) : FlowRow :=
  ⟨f.id, workspace, f.live, .ofRevision f.revision, f⟩

def owns (workspace : String) (id : FlowId) (r : FlowRow) : Bool :=
  r.id = id && r.workspace = workspace

def read (r : FlowRow) : Except StoreError Flow := do
  let document ← r.document.readBack
  let revision ← r.revision.read
  return { document with revision }

end FlowRow

namespace ArchivedRow

def owns (workspace : String) (id : FlowId) (r : ArchivedRow) : Bool :=
  r.id = id && r.workspace = workspace

def read (r : ArchivedRow) : Except StoreError Flow := r.document.readBack

end ArchivedRow

namespace TableStore

def insertRow (row : FlowRow) (s : TableStore) : Except StoreError Unit × TableStore :=
  if s.active.any (·.id = row.id) then (.error (.flowExists row.id), s)
  else (.ok (), { s with active := s.active ++ [row] })

def getFlow (workspace : String) (id : FlowId) (s : TableStore) : Except StoreError Flow :=
  match s.active.find? (FlowRow.owns workspace id) with
  | some row => row.read
  | none => .error (.flowNotFound id)

/-- A save that makes the revision unreadable changes the row and reports an error. -/
def saveFlow (flow : Flow) (expected : Option UInt64) (s : TableStore) :
    Except StoreError UInt64 × TableStore :=
  match s.active.find? (FlowRow.owns flow.workspace flow.id) with
  | none => (.error (.flowNotFound flow.id), s)
  | some row =>
    match expected.filter fun e ↦ row.revision ≠ .ofRevision e with
    | some expected => (row.revision.read.bind fun actual ↦
        .error (.conflict flow.id expected actual), s)
    | none =>
      let revision := row.revision.next
      (revision.read, { s with
        active := modifyFirst (FlowRow.owns flow.workspace flow.id)
          (fun r ↦ { r with live := flow.live, revision, document := flow }) s.active })

def archiveFlow (workspace : String) (id : FlowId) (s : TableStore) :
    Except StoreError Unit × TableStore :=
  match getFlow workspace id s with
  | .error e => (.error e, s)
  | .ok flow =>
    if s.archived.any (·.id = id) then (.error (.flowExists id), s)
    else (.ok (), { s with
      active := s.active.filter fun r ↦ !r.owns workspace id
      archived := s.archived ++ [⟨id, workspace, flow⟩] })

def restoreFlow (workspace : String) (id : FlowId) (s : TableStore) :
    Except StoreError Unit × TableStore :=
  match s.archived.find? (ArchivedRow.owns workspace id) with
  | none => (.error (.archivedFlowNotFound id), s)
  | some row =>
    match row.read with
    | .error e => (.error e, s)
    | .ok flow =>
      match insertRow { FlowRow.ofFlow workspace flow with id } s with
      | (.error e, s) => (.error e, s)
      | (.ok (), s) =>
        (.ok (), { s with archived := s.archived.filter fun r ↦ !r.owns workspace id })

instance : Store TableStore where
  empty := {}
  insertFlow flow := insertRow (.ofFlow flow.workspace flow)
  getFlow := getFlow
  listFlows workspace s := (s.active.filter (·.workspace = workspace)).mapM FlowRow.read
  listLiveFlows workspace s :=
    (s.active.filter fun r ↦ r.workspace = workspace && r.live).mapM FlowRow.read
  saveFlow := saveFlow
  archiveFlow := archiveFlow
  listArchivedFlows workspace s :=
    (s.archived.filter (·.workspace = workspace)).mapM ArchivedRow.read
  restoreFlow := restoreFlow
  getUserState workspace user s := s.users.find? (UserState.isOf workspace user)
  putUserState state s := { s with users := state.put s.users }
  recordEvents events s := { s with events := s.events ++ events }
  listEvents workspace id s :=
    s.events.filter fun e ↦ e.workspace = workspace && e.entity = id.text

end TableStore

end GuidedTours
