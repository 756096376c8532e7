import CallReplacement.Catalog
import CallReplacement.Catalog.SeededRandom
import CallReplacement.Catalog.StripAsserts
import CallReplacement.Command.Arguments
import CallReplacement.Command.Help
import CallReplacement.Command.Run
import CallReplacement.Decimal.Shortest
import CallReplacement.Diagnostic
import CallReplacement.Expr
import CallReplacement.Failure
import CallReplacement.Files.Path
import CallReplacement.Files.Tree
import CallReplacement.Files.View
import CallReplacement.Json.Basics
import CallReplacement.Json.Draft
import CallReplacement.Json.Lexeme
import CallReplacement.Json.Shape
import CallReplacement.Json.Shapes
import CallReplacement.Json.Source
import CallReplacement.Json.Target
import CallReplacement.Json.Value
import CallReplacement.Literal
import CallReplacement.Location
import CallReplacement.Main
import CallReplacement.Operator
import CallReplacement.Options
import CallReplacement.Options.Check
import CallReplacement.Options.Layout
import CallReplacement.Options.Span
import CallReplacement.Pipeline
import CallReplacement.Proofs.Catalog.Annotations
import CallReplacement.Proofs.Catalog.SeededDraws
import CallReplacement.Proofs.Catalog.Selection
import CallReplacement.Proofs.Catalog.StrippedTypes
import CallReplacement.Proofs.Expr.Induction
import CallReplacement.Proofs.Expr.Layer
import CallReplacement.Proofs.Expr.Scope
import CallReplacement.Proofs.JavaScript.Grammar
import CallReplacement.Proofs.JavaScript.Lexeme
import CallReplacement.Proofs.JavaScript.Mark
import CallReplacement.Proofs.JavaScript.Parser
import CallReplacement.Proofs.JavaScript.Scope
import CallReplacement.Proofs.JavaScript.Spine
import CallReplacement.Proofs.JavaScript.Token
import CallReplacement.Proofs.JavaScript.Unambiguous
import CallReplacement.Proofs.Json.Edit
import CallReplacement.Proofs.Json.Held
import CallReplacement.Proofs.Json.Members
import CallReplacement.Proofs.Json.Mirror
import CallReplacement.Proofs.Json.Record
import CallReplacement.Proofs.Json.Role
import CallReplacement.Proofs.Options.Accepted
import CallReplacement.Proofs.Options.Listing
import CallReplacement.Proofs.Options.Violation
import CallReplacement.Proofs.Pipeline.FirstFailure
import CallReplacement.Proofs.Pipeline.Override
import CallReplacement.Proofs.Pipeline.Registration
import CallReplacement.Proofs.Pipeline.Warnings
import CallReplacement.Proofs.Report.Agreement
import CallReplacement.Proofs.Report.Annotations
import CallReplacement.Proofs.Resolve.Assembly
import CallReplacement.Proofs.Resolve.CallLog
import CallReplacement.Proofs.Resolve.CallOrder
import CallReplacement.Proofs.Resolve.Decision
import CallReplacement.Proofs.Resolve.Logged
import CallReplacement.Proofs.Resolve.Operands
import CallReplacement.Proofs.Resolve.Ownership
import CallReplacement.Proofs.Resolve.Parametric
import CallReplacement.Proofs.Resolve.PassThrough
import CallReplacement.Proofs.Resolve.Patterns
import CallReplacement.Proofs.Resolve.Refusals
import CallReplacement.Proofs.Resolve.Registered
import CallReplacement.Proofs.Resolve.Simulation
import CallReplacement.Proofs.Resolve.Typing
import CallReplacement.Proofs.Resolve.Warnings
import CallReplacement.Proofs.Scope
import CallReplacement.Proofs.Script.AliasSearch
import CallReplacement.Proofs.Script.Capture
import CallReplacement.Proofs.Script.Construct
import CallReplacement.Proofs.Script.DecimalPoint
import CallReplacement.Proofs.Script.Filled
import CallReplacement.Proofs.Script.Filling
import CallReplacement.Proofs.Script.Formats
import CallReplacement.Proofs.Script.ImportHistory
import CallReplacement.Proofs.Script.Imports
import CallReplacement.Proofs.Script.Indentation
import CallReplacement.Proofs.Script.Margin
import CallReplacement.Proofs.Script.ModuleNames
import CallReplacement.Proofs.Script.Nesting
import CallReplacement.Proofs.Script.Nodes
import CallReplacement.Proofs.Script.Numerals
import CallReplacement.Proofs.Script.Phrase
import CallReplacement.Proofs.Script.Placeholders
import CallReplacement.Proofs.Script.ReadBack
import CallReplacement.Proofs.Script.SameText
import CallReplacement.Proofs.Script.Scoping
import CallReplacement.Proofs.Script.Tree
import CallReplacement.Proofs.Source.Callback
import CallReplacement.Proofs.Source.Decoding
import CallReplacement.Proofs.Source.Places
import CallReplacement.Proofs.Source.Postorder
import CallReplacement.Proofs.Source.Rebuild
import CallReplacement.Proofs.Source.Repeats
import CallReplacement.Proofs.Source.SameCode
import CallReplacement.Proofs.Source.WellFormed
import CallReplacement.Proofs.Text.Place
import CallReplacement.Report
import CallReplacement.Resolve.Builtins
import CallReplacement.Resolve.CallSite
import CallReplacement.Resolve.Extension
import CallReplacement.Resolve.Lowering
import CallReplacement.Resolve.Resolution
import CallReplacement.Resolve.Standard
import CallReplacement.Resolve.Standard.Random
import CallReplacement.Resolve.Standard.Strings
import CallReplacement.Resolve.Trace
import CallReplacement.Script.Imports
import CallReplacement.Script.Indent
import CallReplacement.Script.Lines
import CallReplacement.Script.Module
import CallReplacement.Script.Render
import CallReplacement.Script.Rendered
import CallReplacement.Script.Template
import CallReplacement.Source.Document
import CallReplacement.Source.Expr
import CallReplacement.Source.File
import CallReplacement.Source.Member
import CallReplacement.Text.Blank
import CallReplacement.Text.Inspected
import CallReplacement.Text.Place
import CallReplacement.Text.Quoted
import CallReplacement.Text.Segments
import CallReplacement.Text.Shapeless
import CallReplacement.Toml.Quoted
import CallReplacement.Toml.Reader
import CallReplacement.Toml.Scalar
import CallReplacement.Toml.Statement
import CallReplacement.Toml.Table
import CallReplacement.Toml.Token
import CallReplacement.ValueType
import CallReplacement.Proofs.Json.RoundTrip
