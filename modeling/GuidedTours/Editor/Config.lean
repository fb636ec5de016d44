import GuidedTours.StepTree.Edit

/-!
How an editor treats deletions and concurrent saves, and where it finds animations.
-/

set_option autoImplicit false

namespace GuidedTours

/-- Whether a save may overwrite one that came after the load. -/
inductive Concurrency where
  | lastWriterWins
  | optimistic
deriving DecidableEq

structure EditorConfig where
  deletePolicy : DeletePolicy := .reconnectFirst
  concurrency : Concurrency := .lastWriterWins
  assetBaseUrl : String := "/assets/"
deriving DecidableEq

end GuidedTours
