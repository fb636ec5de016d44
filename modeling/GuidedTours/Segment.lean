import GuidedTours.StepTree.Edit

/-!
Segments, the named audiences between which a flow can branch.
-/

set_option autoImplicit false

namespace GuidedTours

structure Segment where
  id : String := ""
  name : String
  iconUrl : String := ""
deriving DecidableEq

namespace Segment

/-- Renames a segment for each incoming entry that has the id of one, and appends a segment for
each other entry; entries without a name are passed over. The appended segments get the ids
`fresh n`, `fresh (n + 1)` and so on. -/
def upsertFrom (fresh : Nat → String) : Nat → List Segment → List Segment → List Segment
  | _, segments, [] => segments
  | n, segments, entry :: rest =>
    if entry.name = "" then upsertFrom fresh n segments rest
    else if entry.id ≠ "" ∧ segments.any (·.id = entry.id) then
      upsertFrom fresh n
        (modifyFirst (·.id = entry.id) (fun s ↦ { s with name := entry.name }) segments) rest
    else
      upsertFrom fresh (n + 1) (segments ++ [⟨fresh n, entry.name, entry.iconUrl⟩]) rest

def upsert (fresh : Nat → String) (segments incoming : List Segment) : List Segment :=
  upsertFrom fresh 0 segments incoming

end Segment

end GuidedTours
