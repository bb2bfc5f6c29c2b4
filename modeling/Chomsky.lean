import Chomsky.Decimal.Shortest
import Chomsky.Declaration.Basic
import Chomsky.Declaration.File
import Chomsky.Derivation.Basic
import Chomsky.Derivation.PathSearch
import Chomsky.Derivation.Queue
import Chomsky.Derivation.Search
import Chomsky.Derivation.Step
import Chomsky.Derivation.Successors
import Chomsky.Derivation.Sweep
import Chomsky.Dialogue.Basic
import Chomsky.Dialogue.Console
import Chomsky.Dialogue.Line
import Chomsky.Error
import Chomsky.Fault
import Chomsky.FileTree
import Chomsky.Grammar.Basic
import Chomsky.Grammar.Hierarchy
import Chomsky.Grammar.Production
import Chomsky.Grammar.Written
import Chomsky.Json.Printer
import Chomsky.Json.Reader
import Chomsky.Json.Value
import Chomsky.Launch
import Chomsky.Main
import Chomsky.Options.Arguments
import Chomsky.Options.Basic
import Chomsky.Options.Completion
import Chomsky.Options.Help
import Chomsky.Options.Synopsis
import Chomsky.Path
import Chomsky.Performance
import Chomsky.Program
import Chomsky.Proofs.Derivation.Answers
import Chomsky.Proofs.Derivation.ContextFree
import Chomsky.Proofs.Derivation.Correspondence
import Chomsky.Proofs.Derivation.Depth
import Chomsky.Proofs.Derivation.Growth
import Chomsky.Proofs.Derivation.Levels
import Chomsky.Proofs.Derivation.Limits
import Chomsky.Proofs.Derivation.Linear
import Chomsky.Proofs.Derivation.Marker
import Chomsky.Proofs.Derivation.Mirror
import Chomsky.Proofs.Derivation.Reach
import Chomsky.Proofs.Derivation.Slices
import Chomsky.Proofs.Derivation.Transport
import Chomsky.Proofs.Derivation.Turns
import Chomsky.Proofs.Derivation.Waypoints
import Chomsky.Proofs.Dialogue.Accounting
import Chomsky.Proofs.Dialogue.Agreement
import Chomsky.Proofs.Dialogue.Blanks
import Chomsky.Proofs.Dialogue.Lines
import Chomsky.Proofs.Grammar.Conditions
import Chomsky.Proofs.Grammar.Declared
import Chomsky.Proofs.Grammar.Display
import Chomsky.Proofs.Grammar.Gathering
import Chomsky.Proofs.Grammar.Nesting
import Chomsky.Proofs.Grammar.Reading
import Chomsky.Proofs.Grammar.Renaming
import Chomsky.Proofs.Grammar.Reversal
import Chomsky.Proofs.Grammar.Squeezing
import Chomsky.Proofs.Grammar.Verdict
import Chomsky.Proofs.Grammar.WellFormed
import Chomsky.Proofs.Json.RoundTrip
import Chomsky.Proofs.Json.Scalars
import Chomsky.Proofs.Options.Defaults
import Chomsky.Proofs.Options.Reading
import Chomsky.Proofs.Options.RoundTrip
import Chomsky.Proofs.Program.Detail
import Chomsky.Proofs.Program.Formats
import Chomsky.Proofs.Program.Limits
import Chomsky.Proofs.Program.Output
import Chomsky.Proofs.Program.Settings
import Chomsky.Proofs.Report.Capacity
import Chomsky.Proofs.Report.Facts
import Chomsky.Proofs.Text.Occurrence
import Chomsky.Report.Basic
import Chomsky.Report.Sink
import Chomsky.Settings
import Chomsky.Status
import Chomsky.Story
import Chomsky.Text.Basic
import Chomsky.Text.Blank
import Chomsky.Text.Bytes
import Chomsky.Text.Occurrence
import Chomsky.Text.Plain
import Chomsky.Text.Quoted
import Chomsky.Text.Scan
import Chomsky.Text.Unprintable
import Chomsky.Toml.Printer
import Chomsky.Toml.Reader
import Chomsky.Toml.Scalar
import Chomsky.Toml.Table
import Chomsky.Toml.Value
