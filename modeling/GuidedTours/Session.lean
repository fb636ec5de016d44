import GuidedTours.Editor.Request
import GuidedTours.Enrollment.Request
import GuidedTours.Store.Request

/-!
Sessions: runs in which editors and enrollment work on one store, together with whoever uses the
store directly. A run answers each of its requests in turn.
-/

set_option autoImplicit false

namespace GuidedTours

inductive Request where
  | store (request : StoreRequest)
  | editor (config : EditorConfig) (workspace : String) (request : EditorRequest)
  | enrollment (workspace : String) (request : EnrollmentRequest)

inductive Answer where
  | store (answer : Except StoreError StoreAnswer)
  | editor (answer : Except EditError EditorAnswer)
  | enrollment (answer : Except EnrollError EnrollmentAnswer)

variable {σ : Type} [Store σ]

def Request.perform (s : σ) : Request → Answer × σ
  | .store request => (request.perform s).map .store id
  | .editor config workspace request => (request.perform config workspace s).map .editor id
  | .enrollment workspace request => (request.perform workspace s).map .enrollment id

namespace Session

def run (s : σ) : List Request → List Answer × σ
  | [] => ([], s)
  | request :: rest =>
    let (answer, s) := request.perform s
    let (answers, s) := run s rest
    (answer :: answers, s)

/-- The store after a run. -/
def after (s : σ) (requests : List Request) : σ := (run s requests).2

theorem run_append (s : σ) (before later : List Request) :
    run s (before ++ later) =
      ((run s before).1 ++ (run (after s before) later).1, after (after s before) later) := by
  induction before generalizing s with
  | nil => rfl
  | cons request rest ih => simp [run, after, ih]

end Session

end GuidedTours
