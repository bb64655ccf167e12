import TreeDigest.Blake3.Compress
import TreeDigest.Blake3.Hasher
import TreeDigest.Blake3.Tree
import TreeDigest.Cancel.Calls
import TreeDigest.Cancel.Signal
import TreeDigest.Cancel.Tokens
import TreeDigest.CommandLine.Basic
import TreeDigest.CommandLine.Parser
import TreeDigest.CommandLine.Printer
import TreeDigest.Configuration
import TreeDigest.Digest.Tree
import TreeDigest.Duration
import TreeDigest.Exclusion
import TreeDigest.FileSystem.Basic
import TreeDigest.FileSystem.Resolve
import TreeDigest.Glob
import TreeDigest.Json.Basic
import TreeDigest.Json.Parser
import TreeDigest.Main
import TreeDigest.Number.Binary64
import TreeDigest.OpenFiles
import TreeDigest.Options
import TreeDigest.OrderedMap
import TreeDigest.Path.Basic
import TreeDigest.Path.Relative
import TreeDigest.Pipeline.Error
import TreeDigest.Pipeline.Feed
import TreeDigest.Pipeline.Run
import TreeDigest.Pipeline.Schedule
import TreeDigest.Pipeline.Session
import TreeDigest.Pipeline.Source
import TreeDigest.Pipeline.State
import TreeDigest.Pipeline.Steps
import TreeDigest.Program
import TreeDigest.Proofs.Blake3.Incremental
import TreeDigest.Proofs.Cancel.OneShot
import TreeDigest.Proofs.Cancel.Steps
import TreeDigest.Proofs.Cancel.Watchdog
import TreeDigest.Proofs.CommandLine.RoundTrip
import TreeDigest.Proofs.Configuration.Precedence
import TreeDigest.Proofs.Digest.Agreement
import TreeDigest.Proofs.Digest.Cancelled
import TreeDigest.Proofs.Digest.Exactness
import TreeDigest.Proofs.Digest.Exclusion
import TreeDigest.Proofs.Digest.Lenient
import TreeDigest.Proofs.Digest.Lines
import TreeDigest.Proofs.Digest.Lossless
import TreeDigest.Proofs.Digest.Order
import TreeDigest.Proofs.Digest.Reading
import TreeDigest.Proofs.Digest.Sample
import TreeDigest.Proofs.Digest.SampleReport
import TreeDigest.Proofs.Digest.Serial
import TreeDigest.Proofs.Digest.Spelling
import TreeDigest.Proofs.Exclusion.Names
import TreeDigest.Proofs.Feed.Delivery
import TreeDigest.Proofs.Feed.Effort
import TreeDigest.Proofs.Feed.Reports
import TreeDigest.Proofs.Feed.Steps
import TreeDigest.Proofs.FileSystem.Alike
import TreeDigest.Proofs.FileSystem.Course
import TreeDigest.Proofs.FileSystem.Distinct
import TreeDigest.Proofs.FileSystem.Lookup
import TreeDigest.Proofs.FileSystem.Meeting
import TreeDigest.Proofs.FileSystem.Write
import TreeDigest.Proofs.Folds
import TreeDigest.Proofs.Glob.Effort
import TreeDigest.Proofs.Glob.Matching
import TreeDigest.Proofs.Json.RoundTrip
import TreeDigest.Proofs.Path.Join
import TreeDigest.Proofs.Path.Order
import TreeDigest.Proofs.Path.Shown
import TreeDigest.Proofs.Path.Spelling
import TreeDigest.Proofs.Path.Strip
import TreeDigest.Proofs.Pipeline.Aftermath
import TreeDigest.Proofs.Pipeline.Backpressure
import TreeDigest.Proofs.Pipeline.Calm
import TreeDigest.Proofs.Pipeline.Closing
import TreeDigest.Proofs.Pipeline.Conservation
import TreeDigest.Proofs.Pipeline.Effort
import TreeDigest.Proofs.Pipeline.Exactness
import TreeDigest.Proofs.Pipeline.Finality
import TreeDigest.Proofs.Pipeline.Pool
import TreeDigest.Proofs.Pipeline.Signals
import TreeDigest.Proofs.Pipeline.Steps
import TreeDigest.Proofs.Pipeline.Stuck
import TreeDigest.Proofs.Pipeline.Verdict
import TreeDigest.Proofs.Report.Shown
import TreeDigest.Proofs.Run.Attuned
import TreeDigest.Proofs.Run.Blame
import TreeDigest.Proofs.Run.Collected
import TreeDigest.Proofs.Run.Effort
import TreeDigest.Proofs.Run.Exactness
import TreeDigest.Proofs.Run.Failures
import TreeDigest.Proofs.Run.Finishing
import TreeDigest.Proofs.Run.Progress
import TreeDigest.Proofs.Run.Results
import TreeDigest.Proofs.Run.Schedule
import TreeDigest.Proofs.Run.Sequential
import TreeDigest.Proofs.Run.Steps
import TreeDigest.Proofs.Run.Termination
import TreeDigest.Proofs.Run.Truth
import TreeDigest.Proofs.Run.Undisturbed
import TreeDigest.Proofs.Settings.Acceptance
import TreeDigest.Proofs.Settings.Section
import TreeDigest.Proofs.Sorting
import TreeDigest.Proofs.Sums
import TreeDigest.Proofs.Text.Encoding
import TreeDigest.Proofs.Text.Utf8
import TreeDigest.Proofs.Toml.Edit
import TreeDigest.Proofs.Toml.Ordered
import TreeDigest.Proofs.Toml.Parser
import TreeDigest.Proofs.Toml.Range
import TreeDigest.Proofs.Tracker.Counting
import TreeDigest.Proofs.Tracker.Deeds
import TreeDigest.Proofs.Tracker.Faithful
import TreeDigest.Proofs.Tracker.Steps
import TreeDigest.Proofs.Tracker.Waking
import TreeDigest.Proofs.Walk.Agreement
import TreeDigest.Proofs.Walk.Exclusion
import TreeDigest.Proofs.Walk.Items
import TreeDigest.Proofs.Walk.Order
import TreeDigest.Proofs.Walk.Reach
import TreeDigest.Proofs.Walk.Roots
import TreeDigest.Proofs.Walk.Skipping
import TreeDigest.Proofs.Walk.Telling
import TreeDigest.Proofs.Walk.Within
import TreeDigest.Queue
import TreeDigest.Report.Basic
import TreeDigest.Report.Printer
import TreeDigest.Settings.Basic
import TreeDigest.Settings.Reader
import TreeDigest.Text.Printable
import TreeDigest.Text.Quoted
import TreeDigest.Text.Utf8
import TreeDigest.Toml.Document
import TreeDigest.Toml.Lexical
import TreeDigest.Toml.Parser
import TreeDigest.Toml.Range
import TreeDigest.Toml.Scalar
import TreeDigest.Toml.Value
import TreeDigest.Tracker
import TreeDigest.Walk.Basic
import TreeDigest.Walk.Items
import TreeDigest.Walk.Parallel
import TreeDigest.Walk.Serial
