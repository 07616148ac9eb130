import TrainingCollar.AppConfig
import TrainingCollar.Calendar
import TrainingCollar.Choice
import TrainingCollar.Coercion
import TrainingCollar.CommandLine
import TrainingCollar.Fault
import TrainingCollar.Field
import TrainingCollar.Files.Path
import TrainingCollar.Files.Tree
import TrainingCollar.Log
import TrainingCollar.Logging
import TrainingCollar.Main
import TrainingCollar.Mapping
import TrainingCollar.Number.Basic
import TrainingCollar.Number.Binary64
import TrainingCollar.Number.Decimal
import TrainingCollar.Number.Layout
import TrainingCollar.Proofs.Blame
import TrainingCollar.Proofs.CanonicalForm
import TrainingCollar.Proofs.Causes
import TrainingCollar.Proofs.Checks
import TrainingCollar.Proofs.Coercion
import TrainingCollar.Proofs.CommandLine.Arguments
import TrainingCollar.Proofs.CommandLine.Showing
import TrainingCollar.Proofs.CommandLine.Sparing
import TrainingCollar.Proofs.CommandLine.Verdict
import TrainingCollar.Proofs.Failure
import TrainingCollar.Proofs.Files.Saving
import TrainingCollar.Proofs.Genuine
import TrainingCollar.Proofs.InPlace
import TrainingCollar.Proofs.Invariants
import TrainingCollar.Proofs.Loading
import TrainingCollar.Proofs.Locating
import TrainingCollar.Proofs.Mapping
import TrainingCollar.Proofs.Merging
import TrainingCollar.Proofs.Number.Exact
import TrainingCollar.Proofs.Number.Magnitude
import TrainingCollar.Proofs.Number.Notation
import TrainingCollar.Proofs.Number.Rounding
import TrainingCollar.Proofs.Order
import TrainingCollar.Proofs.Places
import TrainingCollar.Proofs.SettingsFile
import TrainingCollar.Proofs.Store.Admission
import TrainingCollar.Proofs.Store.Advance
import TrainingCollar.Proofs.Store.Attempt
import TrainingCollar.Proofs.Store.Bounds
import TrainingCollar.Proofs.Store.Convergence
import TrainingCollar.Proofs.Store.Course
import TrainingCollar.Proofs.Store.Delivery
import TrainingCollar.Proofs.Store.Documented
import TrainingCollar.Proofs.Store.Draining
import TrainingCollar.Proofs.Store.Emptying
import TrainingCollar.Proofs.Store.FanOut
import TrainingCollar.Proofs.Store.Filing
import TrainingCollar.Proofs.Store.History
import TrainingCollar.Proofs.Store.Interleaving
import TrainingCollar.Proofs.Store.KeptFile
import TrainingCollar.Proofs.Store.Ledger
import TrainingCollar.Proofs.Store.Newcomer
import TrainingCollar.Proofs.Store.Notification
import TrainingCollar.Proofs.Store.Provenance
import TrainingCollar.Proofs.Store.Reachable
import TrainingCollar.Proofs.Store.Recovery
import TrainingCollar.Proofs.Store.Renewal
import TrainingCollar.Proofs.Store.Reporting
import TrainingCollar.Proofs.Store.Rereading
import TrainingCollar.Proofs.Store.Session
import TrainingCollar.Proofs.Store.SoleWriter
import TrainingCollar.Proofs.Store.StepEdits
import TrainingCollar.Proofs.Store.Trace
import TrainingCollar.Proofs.Store.Unsubscribing
import TrainingCollar.Proofs.Store.Updating
import TrainingCollar.Proofs.Store.Validity
import TrainingCollar.Proofs.Store.Watching
import TrainingCollar.Proofs.Strength
import TrainingCollar.Proofs.Summary
import TrainingCollar.Proofs.Validation
import TrainingCollar.Proofs.Yaml.Failure
import TrainingCollar.Proofs.Yaml.Leads
import TrainingCollar.Proofs.Yaml.Meaning
import TrainingCollar.Proofs.Yaml.Scan
import TrainingCollar.Proofs.Yaml.Sheet
import TrainingCollar.Proofs.Yaml.Tree
import TrainingCollar.Proofs.Yaml.Word
import TrainingCollar.SettingsFile
import TrainingCollar.Store.Basic
import TrainingCollar.Store.Machine
import TrainingCollar.Store.Mutation
import TrainingCollar.Store.Script
import TrainingCollar.Summary
import TrainingCollar.Text.Blank
import TrainingCollar.Text.Digit
import TrainingCollar.Text.Printable
import TrainingCollar.Text.Quoted
import TrainingCollar.Text.UpperCase
import TrainingCollar.Validation
import TrainingCollar.Value.Basic
import TrainingCollar.Value.Order
import TrainingCollar.Value.Text
import TrainingCollar.Violation
import TrainingCollar.Yaml.Alias
import TrainingCollar.Yaml.Content
import TrainingCollar.Yaml.Cursor
import TrainingCollar.Yaml.Lexer
import TrainingCollar.Yaml.Node
import TrainingCollar.Yaml.Printer
import TrainingCollar.Yaml.Property
import TrainingCollar.Yaml.Scalar
import TrainingCollar.Yaml.Schema
import TrainingCollar.Yaml.Style
import TrainingCollar.Yaml.Token
