import ScriptFlow.Collection.OrderedMap
import ScriptFlow.CommandLine.Options
import ScriptFlow.CommandLine.Outcome
import ScriptFlow.CommandLine.Run
import ScriptFlow.CommandLine.Summary
import ScriptFlow.Decoding
import ScriptFlow.Expr.Basic
import ScriptFlow.Expr.Encoding
import ScriptFlow.Expr.Equality
import ScriptFlow.Expr.Listing
import ScriptFlow.Expr.Reader
import ScriptFlow.Expr.Token
import ScriptFlow.Expr.Walk
import ScriptFlow.Expr.Writer
import ScriptFlow.Graph.Basic
import ScriptFlow.Graph.Build
import ScriptFlow.Graph.Diagnostic
import ScriptFlow.Graph.Dot
import ScriptFlow.Graph.ExecShape
import ScriptFlow.Graph.Job
import ScriptFlow.Graph.JumpTable
import ScriptFlow.Graph.Placement
import ScriptFlow.Graph.ValueTree
import ScriptFlow.Graph.Writer
import ScriptFlow.Json.Basic
import ScriptFlow.Json.Decoder
import ScriptFlow.Json.Quoted
import ScriptFlow.Json.Reader
import ScriptFlow.Json.Writer
import ScriptFlow.Layout.Duration
import ScriptFlow.Layout.Engine
import ScriptFlow.Machine
import ScriptFlow.Main
import ScriptFlow.Number.Decimal
import ScriptFlow.Number.Digits
import ScriptFlow.Number.Literal
import ScriptFlow.Number.Numeral
import ScriptFlow.Number.Rounding
import ScriptFlow.Number.Scaling
import ScriptFlow.Number.Single
import ScriptFlow.OffsetTable
import ScriptFlow.Package
import ScriptFlow.Proofs.Collection.OrderedMap
import ScriptFlow.Proofs.CommandLine.Outcome
import ScriptFlow.Proofs.CommandLine.Request
import ScriptFlow.Proofs.Expr.Bookkeeping
import ScriptFlow.Proofs.Expr.Footprint
import ScriptFlow.Proofs.Expr.Lines
import ScriptFlow.Proofs.Expr.NormalForm
import ScriptFlow.Proofs.Expr.Offsets
import ScriptFlow.Proofs.Expr.Partition
import ScriptFlow.Proofs.Expr.Preorder
import ScriptFlow.Proofs.Expr.Rereading
import ScriptFlow.Proofs.Expr.Segments
import ScriptFlow.Proofs.Expr.Structure
import ScriptFlow.Proofs.Flow.Accounting
import ScriptFlow.Proofs.Flow.Acyclic
import ScriptFlow.Proofs.Flow.Continuations
import ScriptFlow.Proofs.Flow.Cycles
import ScriptFlow.Proofs.Flow.Entries
import ScriptFlow.Proofs.Flow.Equality
import ScriptFlow.Proofs.Flow.Exactness
import ScriptFlow.Proofs.Flow.Finish
import ScriptFlow.Proofs.Flow.Folding
import ScriptFlow.Proofs.Flow.Gaps
import ScriptFlow.Proofs.Flow.Inputs
import ScriptFlow.Proofs.Flow.Instruction
import ScriptFlow.Proofs.Flow.Modes
import ScriptFlow.Proofs.Flow.Parts
import ScriptFlow.Proofs.Flow.Stream
import ScriptFlow.Proofs.Flow.Variables
import ScriptFlow.Proofs.Flow.Warnings
import ScriptFlow.Proofs.Flow.WellFormed
import ScriptFlow.Proofs.Graph.Changes
import ScriptFlow.Proofs.Graph.DotText
import ScriptFlow.Proofs.Graph.PinNames
import ScriptFlow.Proofs.Graph.RecordLabel
import ScriptFlow.Proofs.Json.Document
import ScriptFlow.Proofs.Json.Rereading
import ScriptFlow.Proofs.Json.Scalars
import ScriptFlow.Proofs.Json.Values
import ScriptFlow.Proofs.Jump.Aliases
import ScriptFlow.Proofs.Jump.Conservation
import ScriptFlow.Proofs.Jump.Flatness
import ScriptFlow.Proofs.Jump.Interleaving
import ScriptFlow.Proofs.Jump.Resolution
import ScriptFlow.Proofs.Layout.Engine
import ScriptFlow.Proofs.Layout.Positions
import ScriptFlow.Proofs.Number.Digits
import ScriptFlow.Proofs.Package.Rereading
import ScriptFlow.Proofs.Settings.Reader
import ScriptFlow.Proofs.Text.Lines
import ScriptFlow.Proofs.Toml.Keys
import ScriptFlow.Proofs.Value.Failures
import ScriptFlow.Proofs.Value.Frame
import ScriptFlow.Proofs.Value.Layers
import ScriptFlow.Proofs.Value.Placing
import ScriptFlow.Proofs.Value.Reading
import ScriptFlow.Proofs.Value.Shape
import ScriptFlow.Proofs.Value.Sharing
import ScriptFlow.Proofs.Value.Tree
import ScriptFlow.Settings.Basic
import ScriptFlow.Settings.File
import ScriptFlow.Settings.Reader
import ScriptFlow.Shell.Arithmetic
import ScriptFlow.Shell.Builtin
import ScriptFlow.Shell.Bytes
import ScriptFlow.Shell.Command
import ScriptFlow.Shell.Condition
import ScriptFlow.Shell.Expansion
import ScriptFlow.Shell.Format
import ScriptFlow.Shell.Pattern
import ScriptFlow.Shell.Redirect
import ScriptFlow.Shell.Run
import ScriptFlow.Shell.Script
import ScriptFlow.Shell.State
import ScriptFlow.Shell.Token
import ScriptFlow.Shell.Utility
import ScriptFlow.Shell.Word
import ScriptFlow.Symbols
import ScriptFlow.System.FileTree
import ScriptFlow.System.Interpreter
import ScriptFlow.System.Machine
import ScriptFlow.System.Program
import ScriptFlow.Text.Attaching
import ScriptFlow.Text.Blank
import ScriptFlow.Text.Range
import ScriptFlow.Text.Shown
import ScriptFlow.Text.Unassigned
import ScriptFlow.Text.Units
import ScriptFlow.Toml.Basic
import ScriptFlow.Toml.Outline
import ScriptFlow.Toml.Reader
import ScriptFlow.Toml.Scalar
import ScriptFlow.Toml.Text
