import Statechart.Arena
import Statechart.Behavior
import Statechart.Builder
import Statechart.Copier.Basic
import Statechart.Copier.Net
import Statechart.Decimal.Shortest
import Statechart.Document
import Statechart.Event
import Statechart.Graph.Basic
import Statechart.Graph.Change
import Statechart.Graph.Copy
import Statechart.Graph.Edit
import Statechart.Graph.Hierarchy
import Statechart.Handle
import Statechart.Handlers
import Statechart.History
import Statechart.Json.Access
import Statechart.Json.Debug
import Statechart.Json.Decode
import Statechart.Json.Number
import Statechart.Json.Printer
import Statechart.Json.Tree
import Statechart.Json.Value
import Statechart.Machine.Basic
import Statechart.Machine.Cascade
import Statechart.Machine.Copies
import Statechart.Machine.Engine
import Statechart.Machine.Error
import Statechart.Machine.Program
import Statechart.Machine.Request
import Statechart.Machine.Run
import Statechart.Machine.Select
import Statechart.Options
import Statechart.Path
import Statechart.Pattern
import Statechart.Pattern.Anchor
import Statechart.Pattern.Basic
import Statechart.Pattern.Class
import Statechart.Pattern.Escape
import Statechart.Pattern.Meaning
import Statechart.Pattern.Parser
import Statechart.Pattern.Size
import Statechart.Pattern.Spacing
import Statechart.Pattern.Tree
import Statechart.Proofs.Builder.Furnishing
import Statechart.Proofs.Builder.Linking
import Statechart.Proofs.Builder.NameTable
import Statechart.Proofs.Builder.Naming
import Statechart.Proofs.Builder.Scoping
import Statechart.Proofs.Copier.Net
import Statechart.Proofs.Graph.Adjacency
import Statechart.Proofs.Graph.Binding
import Statechart.Proofs.Graph.Canonical
import Statechart.Proofs.Graph.Chains
import Statechart.Proofs.Graph.CopyTies
import Statechart.Proofs.Graph.Copying
import Statechart.Proofs.Graph.Editing
import Statechart.Proofs.Graph.Excision
import Statechart.Proofs.Graph.Findings
import Statechart.Proofs.Graph.Growth
import Statechart.Proofs.Graph.Hierarchy
import Statechart.Proofs.Graph.Identification
import Statechart.Proofs.Graph.Isomorphism
import Statechart.Proofs.Graph.Kinds
import Statechart.Proofs.Graph.Labels
import Statechart.Proofs.Graph.Linking
import Statechart.Proofs.Graph.Lookup
import Statechart.Proofs.Graph.Marks
import Statechart.Proofs.Graph.Neighbours
import Statechart.Proofs.Graph.Nesting
import Statechart.Proofs.Graph.Ownership
import Statechart.Proofs.Graph.Paths
import Statechart.Proofs.Graph.Removal
import Statechart.Proofs.Graph.Replica
import Statechart.Proofs.Graph.Restriction
import Statechart.Proofs.Graph.Roster
import Statechart.Proofs.Graph.Ties
import Statechart.Proofs.Graph.Transport
import Statechart.Proofs.Graph.Validity
import Statechart.Proofs.Graph.Walks
import Statechart.Proofs.Json.Scalars
import Statechart.Proofs.Json.Text
import Statechart.Proofs.Json.Trees
import Statechart.Proofs.Machine.Admission
import Statechart.Proofs.Machine.Alignment
import Statechart.Proofs.Machine.AlignmentRuns
import Statechart.Proofs.Machine.Arrivals
import Statechart.Proofs.Machine.Bearing
import Statechart.Proofs.Machine.BearingCalls
import Statechart.Proofs.Machine.BearingMoves
import Statechart.Proofs.Machine.Books
import Statechart.Proofs.Machine.Calls
import Statechart.Proofs.Machine.Candidates
import Statechart.Proofs.Machine.Choosing
import Statechart.Proofs.Machine.Clan
import Statechart.Proofs.Machine.Commits
import Statechart.Proofs.Machine.Comparison
import Statechart.Proofs.Machine.Confinement
import Statechart.Proofs.Machine.Correspondence
import Statechart.Proofs.Machine.Crossings
import Statechart.Proofs.Machine.Cutoff
import Statechart.Proofs.Machine.Dispatching
import Statechart.Proofs.Machine.EventRuns
import Statechart.Proofs.Machine.EventTurns
import Statechart.Proofs.Machine.Exclusion
import Statechart.Proofs.Machine.Feigning
import Statechart.Proofs.Machine.Forwarding
import Statechart.Proofs.Machine.Gears
import Statechart.Proofs.Machine.Halting
import Statechart.Proofs.Machine.Isolation
import Statechart.Proofs.Machine.Journal
import Statechart.Proofs.Machine.Lineage
import Statechart.Proofs.Machine.Lockstep
import Statechart.Proofs.Machine.LockstepRuns
import Statechart.Proofs.Machine.Mirror
import Statechart.Proofs.Machine.Moves
import Statechart.Proofs.Machine.Oblivion
import Statechart.Proofs.Machine.Outbound
import Statechart.Proofs.Machine.Outcomes
import Statechart.Proofs.Machine.Outlasting
import Statechart.Proofs.Machine.Pausing
import Statechart.Proofs.Machine.Progress
import Statechart.Proofs.Machine.Projection
import Statechart.Proofs.Machine.Provenance
import Statechart.Proofs.Machine.Quiescence
import Statechart.Proofs.Machine.Readiness
import Statechart.Proofs.Machine.Recopying
import Statechart.Proofs.Machine.Reentry
import Statechart.Proofs.Machine.Refusals
import Statechart.Proofs.Machine.Requests
import Statechart.Proofs.Machine.Resting
import Statechart.Proofs.Machine.Restoring
import Statechart.Proofs.Machine.Resuming
import Statechart.Proofs.Machine.Rollback
import Statechart.Proofs.Machine.Running
import Statechart.Proofs.Machine.Scope
import Statechart.Proofs.Machine.Selection
import Statechart.Proofs.Machine.Setbacks
import Statechart.Proofs.Machine.Slot
import Statechart.Proofs.Machine.Stances
import Statechart.Proofs.Machine.Stations
import Statechart.Proofs.Machine.Stepwise
import Statechart.Proofs.Machine.Trail
import Statechart.Proofs.Machine.Underway
import Statechart.Proofs.Machine.Unnoticed
import Statechart.Proofs.Machine.Visits
import Statechart.Proofs.Machine.Work
import Statechart.Proofs.Path
import Statechart.Proofs.Snapshot.Binary
import Statechart.Proofs.Snapshot.Forms
import Statechart.Proofs.Snapshot.Passage
import Statechart.Proofs.Time
import Statechart.Report.Graph
import Statechart.Report.Machine
import Statechart.Script.Basic
import Statechart.Script.Run
import Statechart.Snapshot.Basic
import Statechart.Snapshot.Binary
import Statechart.Snapshot.Restore
import Statechart.Text.Age
import Statechart.Text.Blank
import Statechart.Text.CaseFold
import Statechart.Text.Category
import Statechart.Text.CharSet
import Statechart.Text.Debug
import Statechart.Text.Hex
import Statechart.Text.Printable
import Statechart.Text.Property
import Statechart.Text.Script
import Statechart.Text.Word
import Statechart.Time
import Statechart.Uuid
import Statechart.Validation
