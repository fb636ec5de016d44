import GuidedTours.Document.Progress
import GuidedTours.Document.Update
import GuidedTours.Json.Printer
import GuidedTours.Json.Reader
import GuidedTours.Session
import GuidedTours.Settings.DatabaseUrl
import GuidedTours.StepTree.Request
import GuidedTours.Store.Listing
import GuidedTours.Store.Tables
import GuidedTours.Proofs.StepTree.Reach
import GuidedTours.Proofs.StepTree.Visits
import GuidedTours.Proofs.StepTree.Outline
import GuidedTours.Proofs.StepTree.Marking
import GuidedTours.Proofs.Lists
import GuidedTours.Proofs.StepTree.Ancestor
import GuidedTours.Proofs.StepTree.Edit
import GuidedTours.Proofs.StepTree.Forest
import GuidedTours.Proofs.Editor.Revise
import GuidedTours.Proofs.Store.Holdings
import GuidedTours.Proofs.Editor.Schedule
import GuidedTours.Proofs.Editor.Upkeep
import GuidedTours.Proofs.Editor.Tracks
import GuidedTours.Proofs.Store.Rows
import GuidedTours.Proofs.Store.Identity
import GuidedTours.Proofs.Store.Agreement
import GuidedTours.Proofs.FlowIds
import GuidedTours.Proofs.Store.Shelves
import GuidedTours.Proofs.Enrollment.Resolution
import GuidedTours.Proofs.Sessions
import GuidedTours.Proofs.Store.UserRecords
import GuidedTours.Proofs.Enrollment.Offers
import GuidedTours.Proofs.Failures
import GuidedTours.Proofs.Enrollment.Reports
import GuidedTours.Proofs.Store.Parts
import GuidedTours.Proofs.Isolation
import GuidedTours.Proofs.Store.Copies
import GuidedTours.Proofs.Editor.Saves
import GuidedTours.Proofs.Editor.Revisions
import GuidedTours.Proofs.Enrollment.Tracking
import GuidedTours.Proofs.Editor.References
import GuidedTours.Proofs.Editor.Writes
import GuidedTours.Proofs.Documents
import GuidedTours.Proofs.StepTree.Acyclic
import GuidedTours.Proofs.StepTree.Inheritance
import GuidedTours.Proofs.StepTree.Placement
import GuidedTours.Proofs.StepTree.Contraction
import GuidedTours.Proofs.StepTree.Splicing
import GuidedTours.Proofs.StepTree.Deletion
import GuidedTours.Proofs.Editor.Provenance
import GuidedTours.Proofs.StepTree.InPlace
import GuidedTours.Proofs.StepTree.Lookups
import GuidedTours.Proofs.Editor.SparseUpdates
import GuidedTours.Proofs.Enrollment.StepTimes
import GuidedTours.Proofs.Calendar
import GuidedTours.Proofs.Spellings
import GuidedTours.Proofs.Enrollment.Relaxation
import GuidedTours.Proofs.Store.UserLists
import GuidedTours.Proofs.Bystanders
import GuidedTours.Proofs.Enrollment.Repetition
import GuidedTours.Proofs.Enrollment.FreshStart
import GuidedTours.Proofs.Store.Moves
import GuidedTours.Proofs.Restoration
import GuidedTours.Proofs.Segments
import GuidedTours.Proofs.Settings
import GuidedTours.Proofs.Store.Ids
import GuidedTours.Proofs.Editor.Dependencies
