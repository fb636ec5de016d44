import GuidedTours.Store

/-!
Requests to a store and what it answers, so that a run of a store is a list of requests.
-/

set_option autoImplicit false

namespace GuidedTours

inductive StoreRequest where
  | insertFlow (flow : Flow)
  | getFlow (workspace : String) (id : FlowId)
  | listFlows (workspace : String)
  | listLiveFlows (workspace : String)
  | saveFlow (flow : Flow) (expected : Option UInt64)
  | archiveFlow (workspace : String) (id : FlowId)
  | listArchivedFlows (workspace : String)
  | restoreFlow (workspace : String) (id : FlowId)
  | getUserState (workspace user : String)
  | putUserState (state : UserState)
  | recordEvents (events : List TrackedEvent)
  | listEvents (workspace : String) (id : FlowId)

inductive StoreAnswer where
  | done
  | flow (flow : Flow)
  | flows (flows : List Flow)
  | revision (revision : UInt64)
  | userState (state : Option UserState)
  | events (events : List TrackedEvent)

namespace StoreRequest

variable {σ : Type} [Store σ]

def perform (s : σ) : StoreRequest → Except StoreError StoreAnswer × σ
  | .insertFlow flow =>
    let (answer, s) := Store.insertFlow flow s
    (answer.map fun _ ↦ .done, s)
  | .getFlow workspace id => ((Store.getFlow workspace id s).map .flow, s)
  | .listFlows workspace => ((Store.listFlows workspace s).map .flows, s)
  | .listLiveFlows workspace => ((Store.listLiveFlows workspace s).map .flows, s)
  | .saveFlow flow expected =>
    let (answer, s) := Store.saveFlow flow expected s
    (answer.map .revision, s)
  | .archiveFlow workspace id =>
    let (answer, s) := Store.archiveFlow workspace id s
    (answer.map fun _ ↦ .done, s)
  | .listArchivedFlows workspace => ((Store.listArchivedFlows workspace s).map .flows, s)
  | .restoreFlow workspace id =>
    let (answer, s) := Store.restoreFlow workspace id s
    (answer.map fun _ ↦ .done, s)
  | .getUserState workspace user => (.ok (.userState (Store.getUserState workspace user s)), s)
  | .putUserState state => (.ok .done, Store.putUserState state s)
  | .recordEvents events => (.ok .done, Store.recordEvents events s)
  | .listEvents workspace id => (.ok (.events (Store.listEvents workspace id s)), s)

end StoreRequest

end GuidedTours
