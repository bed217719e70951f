import CallFusion.Bridge.Address
import CallFusion.Bridge.Basic
import CallFusion.Bridge.Cached
import CallFusion.Bridge.Filter
import CallFusion.Bridge.IpLiteral
import CallFusion.Bridge.Remote
import CallFusion.Bridge.Service
import CallFusion.Bridge.Url
import CallFusion.Checkup
import CallFusion.Cli.Action
import CallFusion.Cli.Catalogue
import CallFusion.Cli.Command
import CallFusion.Cli.Completion
import CallFusion.Cli.Flag
import CallFusion.Cli.Script
import CallFusion.Cli.Script.Builtin
import CallFusion.Cli.Script.Command
import CallFusion.Cli.Script.Condition
import CallFusion.Cli.Script.Format
import CallFusion.Cli.Script.Mode
import CallFusion.Cli.Script.Paths
import CallFusion.Cli.Script.Pattern
import CallFusion.Cli.Script.Real
import CallFusion.Cli.Script.Shell
import CallFusion.Cli.Script.Sum
import CallFusion.Cli.Script.Switch
import CallFusion.Cli.Script.Utility
import CallFusion.Cli.Session
import CallFusion.Cli.Usage
import CallFusion.Diagnostic
import CallFusion.Diagnostic.Printer
import CallFusion.Environment
import CallFusion.Fault
import CallFusion.Inspection
import CallFusion.Ir.CallSite
import CallFusion.Ir.Clone
import CallFusion.Ir.Constant
import CallFusion.Ir.FloatLiteral
import CallFusion.Ir.Layout
import CallFusion.Ir.Metadata.Schema
import CallFusion.Ir.Metadata.Vocabulary
import CallFusion.Ir.Module
import CallFusion.Ir.Name
import CallFusion.Ir.Numbering
import CallFusion.Ir.Operation
import CallFusion.Ir.Parser
import CallFusion.Ir.Parser.Basic
import CallFusion.Ir.Parser.Constant
import CallFusion.Ir.Parser.Instruction
import CallFusion.Ir.Parser.Metadata
import CallFusion.Ir.Parser.Type
import CallFusion.Ir.Payload
import CallFusion.Ir.Printer
import CallFusion.Ir.Producer
import CallFusion.Ir.References
import CallFusion.Ir.Splice
import CallFusion.Ir.Token
import CallFusion.Ir.Type
import CallFusion.Ir.Uses
import CallFusion.Ir.Value
import CallFusion.Ir.Word
import CallFusion.Json.Basic
import CallFusion.Json.Decode
import CallFusion.Json.Fields
import CallFusion.Json.Parser
import CallFusion.Locator
import CallFusion.Log
import CallFusion.Main
import CallFusion.Merge.Marshalling
import CallFusion.Merge.Mode
import CallFusion.Merge.Pass
import CallFusion.Merge.Profile
import CallFusion.Merge.Rename
import CallFusion.Merge.Rpc
import CallFusion.Proofs.Bridge.Attempts
import CallFusion.Proofs.Bridge.Interleaving
import CallFusion.Proofs.Except
import CallFusion.Proofs.Ir.Addresses
import CallFusion.Proofs.Ir.Buffers
import CallFusion.Proofs.Ir.Callees
import CallFusion.Proofs.Ir.Casts
import CallFusion.Proofs.Ir.Cloning
import CallFusion.Proofs.Ir.Copies
import CallFusion.Proofs.Ir.Declarations
import CallFusion.Proofs.Ir.Dominance
import CallFusion.Proofs.Ir.Exchange
import CallFusion.Proofs.Ir.Exchanges
import CallFusion.Proofs.Ir.Execution
import CallFusion.Proofs.Ir.Insertion
import CallFusion.Proofs.Ir.Layout
import CallFusion.Proofs.Ir.LocalNames
import CallFusion.Proofs.Ir.Lowering
import CallFusion.Proofs.Ir.Measures
import CallFusion.Proofs.Ir.Mentions
import CallFusion.Proofs.Ir.Numbers
import CallFusion.Proofs.Ir.Operands
import CallFusion.Proofs.Ir.Phis
import CallFusion.Proofs.Ir.Pruning
import CallFusion.Proofs.Ir.Removal
import CallFusion.Proofs.Ir.Renumbering
import CallFusion.Proofs.Ir.Replacement
import CallFusion.Proofs.Ir.Shapes
import CallFusion.Proofs.Ir.Simulation
import CallFusion.Proofs.Ir.Sites
import CallFusion.Proofs.Ir.SizeEnds
import CallFusion.Proofs.Ir.Sizes
import CallFusion.Proofs.Ir.Slots
import CallFusion.Proofs.Ir.Sources
import CallFusion.Proofs.Ir.Spelling
import CallFusion.Proofs.Ir.Splice
import CallFusion.Proofs.Ir.StringOperands
import CallFusion.Proofs.Ir.Strings
import CallFusion.Proofs.Ir.Substitution
import CallFusion.Proofs.Ir.Uses
import CallFusion.Proofs.Ir.WellFormed
import CallFusion.Proofs.Json.Stored
import CallFusion.Proofs.Json.Strings
import CallFusion.Proofs.Merge.Accounting
import CallFusion.Proofs.Merge.Agreement
import CallFusion.Proofs.Merge.CastNames
import CallFusion.Proofs.Merge.Completion
import CallFusion.Proofs.Merge.Consistency
import CallFusion.Proofs.Merge.CopySizes
import CallFusion.Proofs.Merge.Copying
import CallFusion.Proofs.Merge.Elision
import CallFusion.Proofs.Merge.EntryNames
import CallFusion.Proofs.Merge.Erasure
import CallFusion.Proofs.Merge.Leftovers
import CallFusion.Proofs.Merge.Linking
import CallFusion.Proofs.Merge.Lookups
import CallFusion.Proofs.Merge.Naming
import CallFusion.Proofs.Merge.Placement
import CallFusion.Proofs.Merge.Planning
import CallFusion.Proofs.Merge.Preservation
import CallFusion.Proofs.Merge.Progress
import CallFusion.Proofs.Merge.Redirection
import CallFusion.Proofs.Merge.Renaming
import CallFusion.Proofs.Merge.Repetition
import CallFusion.Proofs.Merge.Reports
import CallFusion.Proofs.Merge.Search
import CallFusion.Proofs.Merge.Subprograms
import CallFusion.Proofs.Merge.Suffixes
import CallFusion.Proofs.Merge.Unchanged
import CallFusion.Proofs.Settings
import CallFusion.Proofs.Shutdown.Once
import CallFusion.Proofs.Shutdown.Stages
import CallFusion.Proofs.Shutdown.Traffic
import CallFusion.Proofs.Store.Calls
import CallFusion.Proofs.Store.History
import CallFusion.Proofs.Store.Rows
import CallFusion.Proofs.Store.Tables
import CallFusion.Proofs.Symbol.Paths
import CallFusion.Proofs.Text.Calendar
import CallFusion.Proofs.Text.Digits
import CallFusion.Proofs.Text.Durations
import CallFusion.Proofs.Text.Escapes
import CallFusion.Proofs.Text.Instants
import CallFusion.Proofs.Text.Rounding
import CallFusion.Proofs.Text.Trimmed
import CallFusion.Proofs.Text.Unquoted
import CallFusion.Proofs.Text.Utf8
import CallFusion.Report
import CallFusion.Scaffold
import CallFusion.Settings
import CallFusion.Shutdown
import CallFusion.Store
import CallFusion.Store.Address
import CallFusion.Store.Pragma
import CallFusion.Store.Pragma.Token
import CallFusion.Store.Row
import CallFusion.Suggestion
import CallFusion.Symbol.CratePath
import CallFusion.Symbol.Demangle
import CallFusion.Symbol.HashedPath
import CallFusion.Symbol.Itanium.Encoding
import CallFusion.Symbol.Itanium.Expression
import CallFusion.Symbol.Itanium.Grammar
import CallFusion.Symbol.Itanium.Name
import CallFusion.Symbol.Itanium.Node
import CallFusion.Symbol.Itanium.Printer
import CallFusion.Symbol.Itanium.Scan
import CallFusion.Symbol.Itanium.Simplify
import CallFusion.Symbol.Itanium.Type
import CallFusion.Symbol.Itanium.Vocabulary
import CallFusion.Symbol.Punycode
import CallFusion.Text.Binary
import CallFusion.Text.Columns
import CallFusion.Text.Duration
import CallFusion.Text.Escape
import CallFusion.Text.Number
import CallFusion.Text.Quoted
import CallFusion.Text.Trim
import CallFusion.Text.Utf8
import CallFusion.Timestamp
import CallFusion.Workspace
