import SectionLedger.Calendar
import SectionLedger.Command.Arguments
import SectionLedger.Command.Compile
import SectionLedger.Command.Ledger
import SectionLedger.Command.Workspace
import SectionLedger.Compiler.Backend
import SectionLedger.Compiler.Diagnostic
import SectionLedger.Compiler.Listing
import SectionLedger.Compiler.Options
import SectionLedger.Compiler.Program
import SectionLedger.Compiler.Report
import SectionLedger.Compiler.Settings
import SectionLedger.Decoration
import SectionLedger.Directory.Basic
import SectionLedger.Directory.Path
import SectionLedger.Display.Basic
import SectionLedger.Display.Decorated
import SectionLedger.Display.Report
import SectionLedger.Display.Survey
import SectionLedger.Fault
import SectionLedger.Interval
import SectionLedger.Json.Message
import SectionLedger.Json.Printer
import SectionLedger.Json.Reader
import SectionLedger.Json.Record
import SectionLedger.Json.Section
import SectionLedger.Json.Settings
import SectionLedger.Json.Value
import SectionLedger.Kind
import SectionLedger.Ledger.Basic
import SectionLedger.Ledger.Operation
import SectionLedger.Ledger.Saved
import SectionLedger.Ledger.Shelf
import SectionLedger.Ledger.ShelfTable
import SectionLedger.Line.Category
import SectionLedger.Line.Opening
import SectionLedger.Main
import SectionLedger.Section
import SectionLedger.Segmentation
import SectionLedger.Source
import SectionLedger.Status
import SectionLedger.Survey
import SectionLedger.Text.Blank
import SectionLedger.Text.CharTable
import SectionLedger.Text.Digit
import SectionLedger.Text.Hex
import SectionLedger.Text.Ink
import SectionLedger.Text.Pattern
import SectionLedger.Text.Split
import SectionLedger.Text.Utf8
import SectionLedger.Text.Word
import SectionLedger.Toml.Lexeme
import SectionLedger.Toml.Number
import SectionLedger.Toml.Printer
import SectionLedger.Toml.Reader
import SectionLedger.Toml.Settings
import SectionLedger.Toml.Table
import SectionLedger.Toml.Value
import SectionLedger.Proofs.Attempt
import SectionLedger.Proofs.Segmentation.Flat
import SectionLedger.Proofs.Segmentation.Nested
import SectionLedger.Proofs.Segmentation.Declarative
import SectionLedger.Proofs.Ledger.Admission
import SectionLedger.Proofs.Ledger.Reparse
import SectionLedger.Proofs.Ledger.Soundness
import SectionLedger.Proofs.Ledger.Verdict
import SectionLedger.Proofs.Ledger.Effect
import SectionLedger.Proofs.Ledger.Laminar
import SectionLedger.Proofs.Ledger.Batch
import SectionLedger.Proofs.Ledger.History
import SectionLedger.Proofs.Ledger.Atomic
import SectionLedger.Proofs.Ledger.Deletion
import SectionLedger.Proofs.Ledger.Removal
import SectionLedger.Proofs.Text.Run
import SectionLedger.Proofs.Json.Token
import SectionLedger.Proofs.Json.Grammar
import SectionLedger.Proofs.Json.Layout
import SectionLedger.Proofs.Json.Record
import SectionLedger.Proofs.Ledger.Saved
import SectionLedger.Proofs.Ledger.Interleaving
import SectionLedger.Proofs.Text.Lines
import SectionLedger.Proofs.Text.Pattern
import SectionLedger.Proofs.Compiler.Session
import SectionLedger.Proofs.Display.Stack
import SectionLedger.Proofs.Display.Rows
import SectionLedger.Proofs.Segmentation.Trailing
import SectionLedger.Proofs.Source.ReadBack
import SectionLedger.Proofs.Directory.ReadBack
import SectionLedger.Proofs.Ledger.Loaded
import SectionLedger.Proofs.Command.Workspace
import SectionLedger.Proofs.Command.Deletion
import SectionLedger.Proofs.Segmentation.Comment
import SectionLedger.Proofs.Compiler.Mention
import SectionLedger.Proofs.Command.Persistence
import SectionLedger.Proofs.Directory.Path
import SectionLedger.Proofs.Text.ByteOrder
import SectionLedger.Proofs.Directory.Tree
import SectionLedger.Proofs.Survey
import SectionLedger.Proofs.Segmentation.Composition
import SectionLedger.Proofs.Segmentation.Depth
import SectionLedger.Proofs.Command.Rereading
import SectionLedger.Proofs.Text.Occurrence
import SectionLedger.Proofs.Compiler.ReadBack
import SectionLedger.Proofs.Compiler.ErrorLine
import SectionLedger.Proofs.Compiler.Listing
import SectionLedger.Proofs.Line.Reading
import SectionLedger.Proofs.Directory.Writes
import SectionLedger.Proofs.Compiler.Provenance
import SectionLedger.Proofs.Compiler.Options
import SectionLedger.Proofs.Segmentation.Translation
import SectionLedger.Proofs.Segmentation.Trimming
import SectionLedger.Proofs.Display.ReadBack
import SectionLedger.Proofs.Toml.Document
import SectionLedger.Proofs.Toml.Settings
import SectionLedger.Proofs.Toml.Omission
