import GuidedTours.Decimal.Shortest
import GuidedTours.Json.OpenData

/-!
What is read where a value has been written. Reading the text of a value gives the value itself,
with two exceptions: a double may come back as another one close by, or as none if it is near the
greatest, and a list or an object cannot be read where too many others stand around it.
-/

set_option autoImplicit false

namespace GuidedTours

namespace Json

mutual

/-- What is read where the text of a value stands in so many lists and objects. -/
def reread (around : Nat) : Json → Json
  | .double x => (number? x.render).getD .unreadable
  | .list items =>
    if around < depthLimit then .list (rereadItems (around + 1) items) else .unreadable
  | .object members =>
    if around < depthLimit then .object (rereadMembers (around + 1) members) else .unreadable
  | v => v

def rereadItems (around : Nat) : List Json → List Json
  | [] => []
  | v :: rest => reread around v :: rereadItems around rest

def rereadMembers (around : Nat) : List (String × Json) → List (String × Json)
  | [] => []
  | (name, v) :: rest => (name, reread around v) :: rereadMembers around rest

end

end Json

namespace OpenData

def reread? (around : Nat) (d : OpenData) : Option OpenData :=
  ofJson? (d.toJson.reread around)

end OpenData

end GuidedTours
