import WorkflowRuns.Conclusion
import WorkflowRuns.Context.Github
import WorkflowRuns.Context.Job
import WorkflowRuns.Context.Runner
import WorkflowRuns.Context.Secrets
import WorkflowRuns.Dict.Basic
import WorkflowRuns.Dict.Lemmas
import WorkflowRuns.Environment.Store
import WorkflowRuns.Environment.Variables
import WorkflowRuns.EnvironmentFile.Entry
import WorkflowRuns.EnvironmentFile.Files
import WorkflowRuns.Executor
import WorkflowRuns.Expression.Name
import WorkflowRuns.Expression.Variable
import WorkflowRuns.Failure
import WorkflowRuns.Files.Disk
import WorkflowRuns.Files.Operations
import WorkflowRuns.Files.Path
import WorkflowRuns.Json.Numeral
import WorkflowRuns.Json.Printer
import WorkflowRuns.Json.Reader
import WorkflowRuns.Json.Record
import WorkflowRuns.Json.Value
import WorkflowRuns.Layout
import WorkflowRuns.Number.Binary64
import WorkflowRuns.Number.Shortest
import WorkflowRuns.Report.Artifact
import WorkflowRuns.Report.Result
import WorkflowRuns.Session.Basic
import WorkflowRuns.Session.Call
import WorkflowRuns.Session.Handover
import WorkflowRuns.Session.Job
import WorkflowRuns.Session.Load
import WorkflowRuns.Session.Step
import WorkflowRuns.Session.Workflow
import WorkflowRuns.Settings
import WorkflowRuns.Text.Basic
import WorkflowRuns.Text.Printable
import WorkflowRuns.Time.Calendar
import WorkflowRuns.Time.Instant
import WorkflowRuns.Trace
import WorkflowRuns.Workflow.Action
import WorkflowRuns.Workflow.Definition
import WorkflowRuns.Workflow.Run
import WorkflowRuns.Proofs.Session.Calls
import WorkflowRuns.Proofs.Session.Coherence
import WorkflowRuns.Proofs.Environment.Layers
import WorkflowRuns.Proofs.Environment.Overlay
import WorkflowRuns.Proofs.Environment.PathList
import WorkflowRuns.Proofs.Session.Environment
import WorkflowRuns.Proofs.Session.Activation
import WorkflowRuns.Proofs.Session.Record
import WorkflowRuns.Proofs.Session.Verdict
import WorkflowRuns.Proofs.Session.JobRecords
import WorkflowRuns.Proofs.EnvironmentFile.Reading
import WorkflowRuns.Proofs.Text.Lines
import WorkflowRuns.Proofs.EnvironmentFile.Writing
import WorkflowRuns.Proofs.Expression.Objects
import WorkflowRuns.Proofs.Session.Steps
import WorkflowRuns.Proofs.Session.Needs
import WorkflowRuns.Proofs.Session.NeedsOrder
import WorkflowRuns.Proofs.Session.TakeOver
import WorkflowRuns.Proofs.Json.Codec
import WorkflowRuns.Proofs.Workflow.Codec
import WorkflowRuns.Proofs.Time.Calendar
import WorkflowRuns.Proofs.Time.Instant
import WorkflowRuns.Proofs.Report.Result
import WorkflowRuns.Proofs.Executor.Delivery
import WorkflowRuns.Proofs.Executor.History
import WorkflowRuns.Proofs.Executor.Archive
import WorkflowRuns.Proofs.Executor.TakeOver
import WorkflowRuns.Proofs.Executor.Reports
import WorkflowRuns.Proofs.Session.SideBySide
import WorkflowRuns.Proofs.Session.Baggage
import WorkflowRuns.Proofs.Expression.Github
import WorkflowRuns.Proofs.Executor.SideBySide
import WorkflowRuns.Proofs.Executor.Secrecy
import WorkflowRuns.Proofs.Executor.FreshStart
import WorkflowRuns.Proofs.Session.Exports
import WorkflowRuns.Proofs.Files.Path
import WorkflowRuns.Proofs.Layout
import WorkflowRuns.Proofs.Executor.Places
import WorkflowRuns.Proofs.Context.Codec
import WorkflowRuns.Proofs.Executor.OutOfOrder
import WorkflowRuns.Proofs.Executor.Apart
import WorkflowRuns.Proofs.Json.Scalars
import WorkflowRuns.Proofs.Json.RoundTrip
import WorkflowRuns.Proofs.Files.Saved
import WorkflowRuns.Proofs.Workflow.Saved
import WorkflowRuns.Proofs.EnvironmentFile.Names
import WorkflowRuns.Proofs.Session.Assignments
import WorkflowRuns.Proofs.Session.SearchPath
import WorkflowRuns.Proofs.Session.FileByFile
import WorkflowRuns.Proofs.Session.Settable
import WorkflowRuns.Proofs.Executor.FileByFile
import WorkflowRuns.Proofs.EnvironmentFile.Appending
import WorkflowRuns.Proofs.EnvironmentFile.LineEndings
import WorkflowRuns.Proofs.Text.Blank
import WorkflowRuns.Proofs.EnvironmentFile.PlainLines
import WorkflowRuns.Proofs.Context.Github
import WorkflowRuns.Proofs.Files.Names
import WorkflowRuns.Proofs.Files.Growth
import WorkflowRuns.Proofs.Files.Directories
import WorkflowRuns.Proofs.Files.Tasks
import WorkflowRuns.Proofs.Files.Ensured
import WorkflowRuns.Proofs.Session.Loading
import WorkflowRuns.Proofs.Session.Details
import WorkflowRuns.Proofs.Executor.Source
