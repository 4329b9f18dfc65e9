import RenderTrace.Main
import RenderTrace.Proofs.Number.Equality
import RenderTrace.Proofs.Profile.Groups
import RenderTrace.Proofs.Profile.Boundary
import RenderTrace.Proofs.Profile.Grouping
import RenderTrace.Proofs.Profile.History
import RenderTrace.Proofs.Profile.Bisection
import RenderTrace.Proofs.Profile.Scan
import RenderTrace.Proofs.Query.Evaluation
import RenderTrace.Proofs.Query.Within
import RenderTrace.Proofs.Sorting
import RenderTrace.Proofs.Profile.Stages
import RenderTrace.Proofs.Profile.Isolation
import RenderTrace.Proofs.Profile.Schedule
import RenderTrace.Proofs.Query.Cancellation
import RenderTrace.Proofs.Profile.Cancellation
import RenderTrace.Proofs.Profile.Submission
import RenderTrace.Proofs.Profile.EmptyRange
import RenderTrace.Proofs.Profile.Partition
import RenderTrace.Proofs.Profile.Totals
import RenderTrace.Proofs.Query.Outcome
import RenderTrace.Proofs.Query.Rows
import RenderTrace.Proofs.Profile.CounterTracks
import RenderTrace.Proofs.Profile.SliceRows
import RenderTrace.Proofs.Profile.Renaming
import RenderTrace.Proofs.Files.Frame
import RenderTrace.Proofs.Files.TextFile
import RenderTrace.Proofs.Json.Number
import RenderTrace.Proofs.Json.Text
import RenderTrace.Proofs.Json.Ascii
import RenderTrace.Proofs.Json.Document
import RenderTrace.Proofs.Report.Document
import RenderTrace.Proofs.Input.Validate
import RenderTrace.Proofs.Input.Grammar
import RenderTrace.Proofs.CommandLine.Inputs
import RenderTrace.Proofs.Profile.Unresolved
import RenderTrace.Proofs.Query.Session
import RenderTrace.Proofs.Number.Double
import RenderTrace.Proofs.Profile.Coverage
import RenderTrace.Proofs.Profile.MetricValues
import RenderTrace.Proofs.Profile.Apart
import RenderTrace.Proofs.Profile.Mean
import RenderTrace.Proofs.Profile.Subdivision
import RenderTrace.Proofs.Profile.Repetition
import RenderTrace.Proofs.Profile.Numbering
import RenderTrace.Proofs.Input.Spelling
import RenderTrace.Proofs.Number.Finite
import RenderTrace.Proofs.Json.Grammar
import RenderTrace.Proofs.Json.Numeral
import RenderTrace.Proofs.Json.Conformance
import RenderTrace.Proofs.Query.Returns
import RenderTrace.Proofs.Input.Finite
import RenderTrace.Proofs.Report.Conformance
import RenderTrace.Proofs.Input.RenderPasses
import RenderTrace.Proofs.Profile.Places
import RenderTrace.Proofs.Profile.Extent
import RenderTrace.Proofs.CommandLine.Refusals
import RenderTrace.Proofs.Profile.Insertion
import RenderTrace.Proofs.Query.Columns
