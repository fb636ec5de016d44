import GuidedTours.Flow
import GuidedTours.TrackedEvent
import GuidedTours.UserState

/-!
What a store of flows, user states and events can do. An operation that may change the store gives
its answer together with the store afterwards; the reads only answer. Every read looks at one
workspace.
-/

set_option autoImplicit false

namespace GuidedTours

inductive StoreError where
  | flowNotFound (id : FlowId)
  | archivedFlowNotFound (id : FlowId)
  | flowExists (id : FlowId)
  | conflict (id : FlowId) (expected actual : UInt64)
  /-- A row holds what cannot be read. -/
  | unreadableRow
deriving DecidableEq

namespace StoreError

def message : StoreError → String
  | .flowNotFound id => "not found: flow " ++ id.text
  | .archivedFlowNotFound id => "not found: archived flow " ++ id.text
  | .flowExists id => "already exists: flow " ++ id.text
  | .conflict id expected actual =>
    "flow " ++ id.text ++ " is at revision " ++ toString actual.toNat ++ ", expected " ++
      toString expected.toNat
  | .unreadableRow => "database error"

def isNotFound : StoreError → Bool
  | .flowNotFound _ | .archivedFlowNotFound _ => true
  | _ => false

end StoreError

class Store (σ : Type) where
  empty : σ
  insertFlow (flow : Flow) (s : σ) : Except StoreError Unit × σ
  getFlow (workspace : String) (id : FlowId) (s : σ) : Except StoreError Flow
  listFlows (workspace : String) (s : σ) : Except StoreError (List Flow)
  listLiveFlows (workspace : String) (s : σ) : Except StoreError (List Flow)
  /-- Replaces a flow and answers its new revision. With an expected revision this happens only if
  the stored flow is at it. -/
  saveFlow (flow : Flow) (expected : Option UInt64) (s : σ) : Except StoreError UInt64 × σ
  archiveFlow (workspace : String) (id : FlowId) (s : σ) : Except StoreError Unit × σ
  listArchivedFlows (workspace : String) (s : σ) : Except StoreError (List Flow)
  restoreFlow (workspace : String) (id : FlowId) (s : σ) : Except StoreError Unit × σ
  getUserState (workspace user : String) (s : σ) : Option UserState
  putUserState (state : UserState) (s : σ) : σ
  recordEvents (events : List TrackedEvent) (s : σ) : σ
  listEvents (workspace : String) (id : FlowId) (s : σ) : List TrackedEvent

end GuidedTours
