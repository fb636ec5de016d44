import GuidedTours.Store

/-!
Why an edit of a flow fails.
-/

set_option autoImplicit false

namespace GuidedTours

/-- What must be given to create a flow. -/
inductive RequiredField where
  | name
  | baseUrl
deriving DecidableEq

def RequiredField.text : RequiredField → String
  | .name => "name"
  | .baseUrl => "base_url"

inductive EditError where
  | step (error : StepError)
  | malformedFlowId (raw : String)
  | selfDependency (flow : FlowId)
  | missingField (field : RequiredField)
  | tree (error : TreeError)
  | store (error : StoreError)
deriving DecidableEq

namespace EditError

def message : EditError → String
  | .step error => error.message
  | .malformedFlowId raw => "invalid reference: malformed flow id: " ++ raw
  | .selfDependency flow =>
    "invalid reference: flow " ++ flow.text ++ " cannot depend on itself"
  | .missingField field => "missing required field: " ++ field.text
  | .tree error => "invalid step graph: " ++ error.message
  | .store error =>
    if error.isNotFound then error.message else "store error: " ++ error.message

end EditError

end GuidedTours
