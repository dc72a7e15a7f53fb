import Montage.Bounds
import Montage.Cli.Invocation
import Montage.Cli.Run
import Montage.Cli.Switch
import Montage.Disk
import Montage.Edit.Apply
import Montage.Edit.Basic
import Montage.Edit.Document
import Montage.Edit.Draft
import Montage.Export.Encoder
import Montage.Export.Event
import Montage.Export.Options
import Montage.Export.OutputPath
import Montage.Export.Progress
import Montage.Export.Request
import Montage.Export.Run
import Montage.Export.Worker
import Montage.Fault
import Montage.Graph.Basic
import Montage.Graph.Builder
import Montage.Graph.CommandLine
import Montage.Graph.Compile
import Montage.Graph.FilterText
import Montage.Graph.Numeral
import Montage.Graph.Resolution
import Montage.Graph.Topology
import Montage.History
import Montage.Ids
import Montage.Json.Document
import Montage.Json.Reader
import Montage.Json.Writer
import Montage.Machine
import Montage.Main
import Montage.Media.Path
import Montage.Media.Probe
import Montage.Media.Programs
import Montage.Media.Report
import Montage.Media.Sources
import Montage.Note
import Montage.Noting
import Montage.Number.Basic
import Montage.Number.Binary64
import Montage.Number.Decimal
import Montage.Number.Field
import Montage.Project.Document
import Montage.Project.File
import Montage.Proofs.Edit.Addressed
import Montage.Proofs.Edit.Applied
import Montage.Proofs.Edit.Changes
import Montage.Proofs.Edit.Complete
import Montage.Proofs.Edit.Effect
import Montage.Proofs.Edit.Faults
import Montage.Proofs.Edit.Inverse
import Montage.Proofs.Edit.Meaning
import Montage.Proofs.Edit.Run
import Montage.Proofs.Edit.Steady
import Montage.Proofs.Edit.Tracks
import Montage.Proofs.Edit.Trims
import Montage.Proofs.Edit.Valid
import Montage.Proofs.Edit.WellFormed
import Montage.Proofs.Export.Attended
import Montage.Proofs.Export.Cancelled
import Montage.Proofs.Export.Command
import Montage.Proofs.Export.Exporter
import Montage.Proofs.Export.Faults
import Montage.Proofs.Export.Furthest
import Montage.Proofs.Export.Heard
import Montage.Proofs.Export.Progress
import Montage.Proofs.Export.Protocol
import Montage.Proofs.Export.Stream
import Montage.Proofs.Export.Told
import Montage.Proofs.Graph.Argument
import Montage.Proofs.Graph.Built
import Montage.Proofs.Graph.Compiled
import Montage.Proofs.Graph.Dimensions
import Montage.Proofs.Graph.Faults
import Montage.Proofs.Graph.Files
import Montage.Proofs.Graph.Finished
import Montage.Proofs.Graph.Fitting
import Montage.Proofs.Graph.Flow
import Montage.Proofs.Graph.Frames
import Montage.Proofs.Graph.Gathered
import Montage.Proofs.Graph.Inputs
import Montage.Proofs.Graph.Label
import Montage.Proofs.Graph.Linear
import Montage.Proofs.Graph.Linked
import Montage.Proofs.Graph.Links
import Montage.Proofs.Graph.Printed
import Montage.Proofs.Graph.Questions
import Montage.Proofs.Graph.Routes
import Montage.Proofs.Graph.Signal
import Montage.Proofs.Graph.Sources
import Montage.Proofs.Graph.Steps
import Montage.Proofs.Graph.Turns
import Montage.Proofs.Graph.Unplaced
import Montage.Proofs.Graph.Windows
import Montage.Proofs.Graph.Written
import Montage.Proofs.History.Zipper
import Montage.Proofs.Number.Fixed
import Montage.Proofs.Number.Moment
import Montage.Proofs.Number.Numeral
import Montage.Proofs.Number.Order
import Montage.Proofs.Number.Range
import Montage.Proofs.Number.Rounding
import Montage.Proofs.Outcome
import Montage.Proofs.Project.Accepted
import Montage.Proofs.Project.Loading
import Montage.Proofs.Project.RoundTrip
import Montage.Proofs.Request.Batch
import Montage.Proofs.Request.Faults
import Montage.Proofs.Request.Overlays
import Montage.Proofs.Request.Placement
import Montage.Proofs.Request.Targets
import Montage.Proofs.Session.Consistent
import Montage.Proofs.Session.Drag
import Montage.Proofs.Session.Editing
import Montage.Proofs.Session.Effect
import Montage.Proofs.Session.Failure
import Montage.Proofs.Session.OneStep
import Montage.Proofs.Session.Run
import Montage.Proofs.Session.Split
import Montage.Proofs.Session.Unsaved
import Montage.Proofs.Settings
import Montage.Proofs.Sorting.Contents
import Montage.Proofs.Sorting.Faults
import Montage.Proofs.Sorting.Stable
import Montage.Proofs.Text
import Montage.Proofs.Timeline.Agreement
import Montage.Proofs.Timeline.Faults
import Montage.Proofs.Timeline.Integrity
import Montage.Proofs.Timeline.Layout
import Montage.Proofs.Timeline.Partition
import Montage.Proofs.Timeline.Shuffled
import Montage.Proofs.Timeline.Sorted
import Montage.Proofs.Timeline.Spot
import Montage.Proofs.Timeline.Timed
import Montage.Proofs.Timeline.Unplaced
import Montage.Proofs.Timeline.Window
import Montage.Proofs.Value.Agreement
import Montage.Proofs.Value.Clamp
import Montage.Proofs.Value.Moment
import Montage.Proofs.Work
import Montage.Rejection
import Montage.Request.Apply
import Montage.Request.Basic
import Montage.Request.Placement
import Montage.Request.Target
import Montage.Session.Basic
import Montage.Session.Export
import Montage.Session.Operation
import Montage.Session.Workspace
import Montage.Settings
import Montage.Sorting.Merge
import Montage.Sorting.Runs
import Montage.Sorting.Search
import Montage.Supply
import Montage.Text.Basic
import Montage.Text.Blank
import Montage.Text.Digit
import Montage.Text.Lines
import Montage.Text.Numeral
import Montage.Text.PathBytes
import Montage.Text.Printable
import Montage.Text.Quoted
import Montage.Text.UpperCase
import Montage.Timeline.Basic
import Montage.Timeline.Clip
import Montage.Timeline.Document
import Montage.Timeline.Geometry
import Montage.Timeline.Integrity
import Montage.Timeline.Ordered
import Montage.Timeline.Overlay
import Montage.Timeline.Track
import Montage.Trace
import Montage.Value.Basic
import Montage.Value.Display
import Montage.Value.Operations
