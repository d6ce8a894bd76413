import Reenact.Code.Import
import Reenact.Code.Literal
import Reenact.Code.Snippet
import Reenact.Decimal.Binary64
import Reenact.Decimal.Layout
import Reenact.Decimal.Shortest
import Reenact.Document.Access
import Reenact.Document.Basic
import Reenact.Document.EventSchema
import Reenact.Document.Fields
import Reenact.Document.Json
import Reenact.Document.ProjectSchema
import Reenact.Document.RecordingSchema
import Reenact.Document.SetupSchema
import Reenact.Fault
import Reenact.Graph.Reach
import Reenact.Id
import Reenact.Project.Basic
import Reenact.Project.Inheritance
import Reenact.Project.Path
import Reenact.Proofs.Graph.Preorder
import Reenact.Proofs.Graph.Reach
import Reenact.Proofs.Project.Definitions
import Reenact.Proofs.Project.Inheritance
import Reenact.Proofs.Project.Links
import Reenact.Proofs.Project.Sources
import Reenact.Proofs.Project.Spelling
import Reenact.Proofs.Recording.Calling
import Reenact.Proofs.Recording.Captured
import Reenact.Proofs.Recording.Chronology
import Reenact.Proofs.Recording.Classifying
import Reenact.Proofs.Recording.Content
import Reenact.Proofs.Recording.Continuing
import Reenact.Proofs.Recording.CrossReference
import Reenact.Proofs.Recording.Dropping
import Reenact.Proofs.Recording.Ending
import Reenact.Proofs.Recording.Filing
import Reenact.Proofs.Recording.Forest
import Reenact.Proofs.Recording.Identity
import Reenact.Proofs.Recording.Linking
import Reenact.Proofs.Recording.Lookup
import Reenact.Proofs.Recording.Methods
import Reenact.Proofs.Recording.Newness
import Reenact.Proofs.Recording.Noting
import Reenact.Proofs.Recording.Operation
import Reenact.Proofs.Recording.Ownership
import Reenact.Proofs.Recording.Parts
import Reenact.Proofs.Recording.Proceeding
import Reenact.Proofs.Recording.Reachable
import Reenact.Proofs.Recording.Refusing
import Reenact.Proofs.Recording.Sharing
import Reenact.Proofs.Recording.Snapshot
import Reenact.Proofs.Recording.Soundness
import Reenact.Proofs.Recording.Taking
import Reenact.Proofs.Recording.TwoRuns
import Reenact.Proofs.Recording.Wholeness
import Reenact.Proofs.Refusal
import Reenact.Proofs.Setup.Aliasing
import Reenact.Proofs.Setup.Binding
import Reenact.Proofs.Setup.Candidates
import Reenact.Proofs.Setup.Closure
import Reenact.Proofs.Setup.Constructing
import Reenact.Proofs.Setup.DefinitionOrder
import Reenact.Proofs.Setup.Distributing
import Reenact.Proofs.Setup.Entry
import Reenact.Proofs.Setup.Extent
import Reenact.Proofs.Setup.Folding
import Reenact.Proofs.Setup.Gaps
import Reenact.Proofs.Setup.History
import Reenact.Proofs.Setup.Ingredients
import Reenact.Proofs.Setup.Interchange
import Reenact.Proofs.Setup.LaterClosure
import Reenact.Proofs.Setup.LaterPlan
import Reenact.Proofs.Setup.LeastClosure
import Reenact.Proofs.Setup.Listing
import Reenact.Proofs.Setup.Mention
import Reenact.Proofs.Setup.NameClashes
import Reenact.Proofs.Setup.Naming
import Reenact.Proofs.Setup.Nesting
import Reenact.Proofs.Setup.Passing
import Reenact.Proofs.Setup.Past
import Reenact.Proofs.Setup.Plan
import Reenact.Proofs.Setup.Printing
import Reenact.Proofs.Setup.Replay
import Reenact.Proofs.Setup.SelfContained
import Reenact.Proofs.Setup.Subjects
import Reenact.Proofs.Text.Quoted
import Reenact.Proofs.Trace.Bracket
import Reenact.Proofs.Trace.BracketTree
import Reenact.Proofs.Trace.Building
import Reenact.Proofs.Trace.Causality
import Reenact.Proofs.Trace.Continuing
import Reenact.Proofs.Trace.Delivery
import Reenact.Proofs.Trace.Exhaustion
import Reenact.Proofs.Trace.Frames
import Reenact.Proofs.Trace.Listening
import Reenact.Proofs.Trace.Methods
import Reenact.Proofs.Trace.Nesting
import Reenact.Proofs.Trace.Newness
import Reenact.Proofs.Trace.Observing
import Reenact.Proofs.Trace.Outcome
import Reenact.Proofs.Trace.Ownership
import Reenact.Proofs.Trace.Patching
import Reenact.Proofs.Trace.Performing
import Reenact.Proofs.Trace.Raising
import Reenact.Proofs.Trace.Rerunning
import Reenact.Proofs.Trace.Roles
import Reenact.Proofs.Trace.Shape
import Reenact.Proofs.Trace.Transparency
import Reenact.Proofs.Trace.TwoRuns
import Reenact.Proofs.Trace.Watch
import Reenact.Proofs.Trace.Wholeness
import Reenact.Recording.Arguments
import Reenact.Recording.Basic
import Reenact.Recording.Call
import Reenact.Recording.CallGraph
import Reenact.Recording.Content
import Reenact.Recording.Effect
import Reenact.Recording.Finish
import Reenact.Recording.Object
import Reenact.Recording.Thread
import Reenact.Recording.Values
import Reenact.Setup.Closure
import Reenact.Setup.Entry
import Reenact.Setup.Lines
import Reenact.Setup.Naming
import Reenact.Setup.Plan
import Reenact.Setup.Render
import Reenact.Text.Blank
import Reenact.Text.CharRun
import Reenact.Text.Digit
import Reenact.Text.Escaped
import Reenact.Text.Letter
import Reenact.Text.Quoted
import Reenact.Text.Uuid
import Reenact.Text.Word
import Reenact.Toml.Number
import Reenact.Toml.Printer
import Reenact.Toml.Reader
import Reenact.Toml.Table
import Reenact.Toml.Text
import Reenact.Trace.Event
import Reenact.Trace.Frame
import Reenact.Trace.Host
import Reenact.Trace.MutationTable
import Reenact.Trace.Observation
import Reenact.Trace.PatchLog
import Reenact.Trace.Recorder
import Reenact.Trace.Run
import Reenact.Trace.Settings
import Reenact.Trace.SettingsFile
import Reenact.Trace.Workspace
import Reenact.Value.Basic
import Reenact.Value.Token
