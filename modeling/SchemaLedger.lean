import SchemaLedger.Access
import SchemaLedger.Aggregate
import SchemaLedger.CommandLine.Arguments
import SchemaLedger.CommandLine.Invocation
import SchemaLedger.CommandLine.Run
import SchemaLedger.CommandLine.Shell
import SchemaLedger.Decimal.Nearest
import SchemaLedger.Decimal.Notation
import SchemaLedger.Decimal.Shortest
import SchemaLedger.Digest.Checksum
import SchemaLedger.Digest.Sha256
import SchemaLedger.Failure
import SchemaLedger.Family
import SchemaLedger.Files.Disk
import SchemaLedger.Files.FileSystem
import SchemaLedger.Files.Path
import SchemaLedger.Json.Codec
import SchemaLedger.Json.Number
import SchemaLedger.Json.Offence
import SchemaLedger.Json.Quoted
import SchemaLedger.Json.Reader
import SchemaLedger.Json.Skip
import SchemaLedger.Json.Writer
import SchemaLedger.Labels
import SchemaLedger.Ledger
import SchemaLedger.Name
import SchemaLedger.Program
import SchemaLedger.Registry
import SchemaLedger.Settings.Basic
import SchemaLedger.Settings.Environment
import SchemaLedger.Settings.Layers
import SchemaLedger.Settings.Loading
import SchemaLedger.Settings.Reading
import SchemaLedger.Settings.Saving
import SchemaLedger.Settings.Setting
import SchemaLedger.Snowflake
import SchemaLedger.Store.Call
import SchemaLedger.Store.Dictionary
import SchemaLedger.Store.File
import SchemaLedger.Store.Memory
import SchemaLedger.Text.Blank
import SchemaLedger.Text.Digits
import SchemaLedger.Text.Shown
import SchemaLedger.Text.Visible
import SchemaLedger.Time.Date
import SchemaLedger.Time.Instant
import SchemaLedger.Time.Reading
import SchemaLedger.Toml.Moment
import SchemaLedger.Toml.Quoted
import SchemaLedger.Toml.Reader
import SchemaLedger.Toml.Scalar
import SchemaLedger.Toml.Tree
import SchemaLedger.View
import SchemaLedger.Wire
import SchemaLedger.Word
import SchemaLedger.Main
import SchemaLedger.Proofs.Dialogue.Jobs
import SchemaLedger.Proofs.Concurrency.World
import SchemaLedger.Proofs.Store.Memory
import SchemaLedger.Proofs.Concurrency.Lineage
import SchemaLedger.Proofs.Concurrency.Revisions
import SchemaLedger.Proofs.Concurrency.Contributions
import SchemaLedger.Proofs.Concurrency.Gate
import SchemaLedger.Proofs.Text.Digits
import SchemaLedger.Proofs.Time.Reading
import SchemaLedger.Proofs.Json.Quoted
import SchemaLedger.Proofs.Json.Scalar
import SchemaLedger.Proofs.Json.Brackets
import SchemaLedger.Proofs.Json.RoundTrip
import SchemaLedger.Proofs.Files.Disk
import SchemaLedger.Proofs.Wire
import SchemaLedger.Proofs.Files.Running
import SchemaLedger.Proofs.Store.Shelf
import SchemaLedger.Proofs.Store.Folder
import SchemaLedger.Proofs.Store.Writing
import SchemaLedger.Proofs.Store.File
import SchemaLedger.Proofs.Store.Opening
import SchemaLedger.Proofs.Store.Agreement
import SchemaLedger.Proofs.Json.Fitting
import SchemaLedger.Proofs.Wire.Formats
import SchemaLedger.Proofs.Name
import SchemaLedger.Proofs.Concurrency.Artifacts
import SchemaLedger.Proofs.Concurrency.Removal
import SchemaLedger.Proofs.Concurrency.Scopes
import SchemaLedger.Proofs.Files.Course
import SchemaLedger.Proofs.Store.Faults
import SchemaLedger.Proofs.Dialogue.Questions
import SchemaLedger.Proofs.Lifecycle.Stage
import SchemaLedger.Proofs.Lifecycle.Serving
import SchemaLedger.Proofs.Lifecycle.Restart
import SchemaLedger.Proofs.Lifecycle.Commands
import SchemaLedger.Proofs.Store.Failures
import SchemaLedger.Proofs.Lifecycle.Crash
import SchemaLedger.Proofs.Lifecycle.Minutes
import SchemaLedger.Proofs.Lifecycle.Catalogue
import SchemaLedger.Proofs.Ledger.Integrity
import SchemaLedger.Proofs.Store.Integrity
import SchemaLedger.Proofs.Concurrency.Tampering
import SchemaLedger.Proofs.Store.Mirror
import SchemaLedger.Proofs.Dialogue.Reasons
import SchemaLedger.Proofs.Concurrency.Chronicle
import SchemaLedger.Proofs.Store.Stale
import SchemaLedger.Proofs.Concurrency.Fleet
import SchemaLedger.Proofs.Lifecycle.Retry
import SchemaLedger.Proofs.Snowflake
import SchemaLedger.Proofs.Concurrency.Runs
import SchemaLedger.Proofs.Concurrency.Bindings
import SchemaLedger.Proofs.Concurrency.Identity
import SchemaLedger.Proofs.Store.Index
import SchemaLedger.Proofs.Concurrency.Contest
import SchemaLedger.Proofs.Concurrency.OnFiles
import SchemaLedger.Proofs.Concurrency.Conflicts
import SchemaLedger.Proofs.Concurrency.SubjectReads
import SchemaLedger.Proofs.Concurrency.Refusals
import SchemaLedger.Proofs.Concurrency.Provenance
import SchemaLedger.Proofs.Store.Apart
import SchemaLedger.Proofs.Settings.Loading
import SchemaLedger.Proofs.Ledger.Versions
import SchemaLedger.Proofs.Store.Paths
import SchemaLedger.Proofs.Settings.Override
