import Journey.Editor.Command
import Journey.Runner.Imported
import Journey.Workflow.Restored
import Journey.Proofs.Graph.Paths
import Journey.Proofs.Graph.Rules
import Journey.Proofs.Graph.Agreement
import Journey.Proofs.Runner.Execution
import Journey.Proofs.Runner.Recompiled
import Journey.Proofs.Condition.Handles
import Journey.Proofs.Editor.Config
import Journey.Proofs.Supply
import Journey.Proofs.Editor.Nodes
import Journey.Proofs.Editor.Clipboard
import Journey.Proofs.Editor.Edges
import Journey.Proofs.Editor.Sessions
import Journey.Proofs.Text.Trimmed
import Journey.Proofs.Decimal.Rounding
import Journey.Proofs.Workflow.Restored
import Journey.Proofs.Editor.History
import Journey.Proofs.Document.Rows
import Journey.Proofs.Config.Reloaded
import Journey.Proofs.Workflow.Reread
import Journey.Proofs.Workflow.Reloaded
import Journey.Proofs.Workflow.Unchanged
import Journey.Proofs.Editor.Refused
import Journey.Proofs.Editor.Unsaved
import Journey.Proofs.Graph.Published
import Journey.Proofs.Config.Decoded
import Journey.Proofs.Workflow.Decoded
import Journey.Proofs.Graph.Reordered
import Journey.Proofs.Runner.Preserved
import Journey.Proofs.Runner.Unguarded
import Journey.Proofs.Editor.Highlights
import Journey.Proofs.Runner.Traced
import Journey.Proofs.Runner.Written
import Journey.Proofs.Editor.Followed
import Journey.Proofs.Editor.Collided
import Journey.Proofs.Runner.Truncated
import Journey.Proofs.Editor.Pasted
import Journey.Proofs.Workflow.Renumbered
import Journey.Proofs.Editor.Inserted
import Journey.Proofs.Condition.Granted
import Journey.Proofs.Editor.Removed
import Journey.Proofs.Runner.Rejoined
import Journey.Proofs.Layout
import Journey.Proofs.Condition.Contained
import Journey.Proofs.Config.Fields
import Journey.Proofs.Config.Salvaged
import Journey.Proofs.Layout.Sorted
import Journey.Proofs.Config.Amended
import Journey.Proofs.Editor.Anchored
import Journey.Proofs.Graph.Searched
import Journey.Proofs.Condition.Picked
