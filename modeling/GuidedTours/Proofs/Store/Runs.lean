import GuidedTours.Store.Request

/-!
Runs of a store: requests one after another, the answers to them and the stores they lead through.
A property that every operation keeps holds at all times of every run that begins with it.
-/

set_option autoImplicit false

namespace GuidedTours

section Kept

variable {σ : Type} [Store σ]

/-- A property of stores that the operations on flows keep. -/
structure KeptByFlows (P : σ → Prop) : Prop where
  insertFlow (f : Flow) (s : σ) : P s → P (Store.insertFlow f s).2
  saveFlow (f : Flow) (expected : Option UInt64) (s : σ) : P s → P (Store.saveFlow f expected s).2
  archiveFlow (workspace : String) (id : FlowId) (s : σ) :
    P s → P (Store.archiveFlow workspace id s).2
  restoreFlow (workspace : String) (id : FlowId) (s : σ) :
    P s → P (Store.restoreFlow workspace id s).2

structure Kept (P : σ → Prop) : Prop extends KeptByFlows P where
  putUserState (state : UserState) (s : σ) : P s → P (Store.putUserState state s)
  recordEvents (events : List TrackedEvent) (s : σ) : P s → P (Store.recordEvents events s)

end Kept

namespace StoreRequest

variable {σ : Type} [Store σ] {s : σ} {requests : List StoreRequest}

def answers : σ → List StoreRequest → List (Except StoreError StoreAnswer)
  | _, [] => []
  | s, r :: rest => (r.perform s).1 :: answers (r.perform s).2 rest

/-- Every request is one that is allowed where it is made. -/
def Along (allowed : σ → StoreRequest → Prop) : σ → List StoreRequest → Prop
  | _, [] => True
  | s, r :: rest => allowed s r ∧ Along allowed (r.perform s).2 rest

/-- The store after a run. -/
def after (s : σ) (requests : List StoreRequest) : σ :=
  requests.foldl (fun s r ↦ (r.perform s).2) s

/-- The store has a property at the beginning and after every request. -/
def Always (P : σ → Prop) : σ → List StoreRequest → Prop
  | s, [] => P s
  | s, r :: rest => P s ∧ Always P (r.perform s).2 rest

theorem Always.first {P : σ → Prop} (h : Always P s requests) : P s := by
  cases requests with
  | nil => exact h
  | cons r rest => exact h.1

theorem Always.mono {P Q : σ → Prop} (hmono : ∀ s, P s → Q s) (h : Always P s requests) :
    Always Q s requests := by
  induction requests generalizing s with
  | nil => exact hmono s h
  | cons r rest ih => exact ⟨hmono s h.1, ih h.2⟩

/-- What every allowed request keeps holds at all times. -/
theorem always_of_along {P : σ → Prop} {allowed : σ → StoreRequest → Prop}
    (hstep : ∀ s r, P s → allowed s r → P (r.perform s).2) (hs : P s)
    (h : Along allowed s requests) : Always P s requests := by
  induction requests generalizing s with
  | nil => exact hs
  | cons r rest ih => exact ⟨hs, ih (hstep s r hs h.1) h.2⟩

/-- What the operations on flows keep, a request keeps if it does so on user states and events. -/
theorem perform_keeps_of_records {P : σ → Prop} (hP : KeptByFlows P) {r : StoreRequest}
    (hput : ∀ state, r = .putUserState state → P (Store.putUserState state s))
    (hrecord : ∀ events, r = .recordEvents events → P (Store.recordEvents events s)) (hs : P s) :
    P (r.perform s).2 := by
  cases r with
  | insertFlow flow => exact hP.insertFlow flow s hs
  | saveFlow flow expected => exact hP.saveFlow flow expected s hs
  | archiveFlow workspace id => exact hP.archiveFlow workspace id s hs
  | restoreFlow workspace id => exact hP.restoreFlow workspace id s hs
  | putUserState state => exact hput state rfl
  | recordEvents events => exact hrecord events rfl
  | getFlow _ _ | listFlows _ | listLiveFlows _ | listArchivedFlows _ | getUserState _ _
  | listEvents _ _ => exact hs

theorem perform_keeps {P : σ → Prop} (hP : Kept P) (hs : P s) (r : StoreRequest) :
    P (r.perform s).2 :=
  perform_keeps_of_records hP.toKeptByFlows (fun state _ ↦ hP.putUserState state s hs)
    (fun events _ ↦ hP.recordEvents events s hs) hs

theorem always_of_kept {P : σ → Prop} (hP : Kept P) (hs : P s) (requests : List StoreRequest) :
    Always P s requests := by
  induction requests generalizing s with
  | nil => exact hs
  | cons r rest ih => exact ⟨hs, ih (perform_keeps hP hs r)⟩

/-- What every allowed request keeps holds after a run of them. -/
theorem after_of_forall {P : σ → Prop} {allowed : StoreRequest → Prop}
    (hstep : ∀ s r, P s → allowed r → P (r.perform s).2) (hs : P s)
    (h : ∀ r ∈ requests, allowed r) : P (after s requests) := by
  induction requests generalizing s with
  | nil => exact hs
  | cons r rest ih =>
    exact ih (hstep s r hs (h r List.mem_cons_self)) fun r' hr' ↦ h r' (List.mem_cons_of_mem r hr')

end StoreRequest

end GuidedTours
