import SheetCompiler.AliasTable
import SheetCompiler.Assoc
import SheetCompiler.Block.Alignment
import SheetCompiler.Block.Comprehension
import SheetCompiler.Block.Shape
import SheetCompiler.Calendar.DateTime
import SheetCompiler.Class.Classification
import SheetCompiler.Class.Module
import SheetCompiler.Class.Section
import SheetCompiler.CommandLine.Arguments
import SheetCompiler.CommandLine.Command
import SheetCompiler.CommandLine.Files
import SheetCompiler.Compile.Body
import SheetCompiler.Compile.Error
import SheetCompiler.Compile.Region
import SheetCompiler.Compile.Report
import SheetCompiler.Compile.Run
import SheetCompiler.Config.Basic
import SheetCompiler.Config.Document
import SheetCompiler.Formula.Basic
import SheetCompiler.Formula.Parser
import SheetCompiler.Formula.Token
import SheetCompiler.Grid.Address
import SheetCompiler.Grid.Range
import SheetCompiler.Grid.Reference
import SheetCompiler.Json.Basic
import SheetCompiler.Json.Number
import SheetCompiler.Json.Reader
import SheetCompiler.Json.Record
import SheetCompiler.Json.Writer
import SheetCompiler.Main
import SheetCompiler.Number.Binary
import SheetCompiler.Number.Layout
import SheetCompiler.Number.Reading
import SheetCompiler.Number.Scaled
import SheetCompiler.Number.Shortest
import SheetCompiler.Path
import SheetCompiler.Proofs.Alias.Freshness
import SheetCompiler.Proofs.Alias.Keys
import SheetCompiler.Proofs.Alias.Resolution
import SheetCompiler.Proofs.Alias.Table
import SheetCompiler.Proofs.Block.Filling
import SheetCompiler.Proofs.Block.Soundness
import SheetCompiler.Proofs.Compile.Binding
import SheetCompiler.Proofs.Compile.Closure
import SheetCompiler.Proofs.Compile.DistinctIdentifiers
import SheetCompiler.Proofs.Compile.Points
import SheetCompiler.Proofs.Compile.Reads
import SheetCompiler.Proofs.Fallible
import SheetCompiler.Proofs.Formula.References
import SheetCompiler.Proofs.Grid.RoundTrip
import SheetCompiler.Proofs.Numerals
import SheetCompiler.Python.Expression
import SheetCompiler.Python.Inputs
import SheetCompiler.Python.Literal
import SheetCompiler.Python.Symbols
import SheetCompiler.Text.Ascii
import SheetCompiler.Text.Blank
import SheetCompiler.Text.Bytes
import SheetCompiler.Text.Case
import SheetCompiler.Text.Quoted
import SheetCompiler.Text.Ranges
import SheetCompiler.Text.Split
import SheetCompiler.Text.Word
import SheetCompiler.Text.Wrap
import SheetCompiler.Workbook.Basic
import SheetCompiler.Workbook.DefinedName
import SheetCompiler.Workbook.Dump
import SheetCompiler.Workbook.Value
import SheetCompiler.Proofs.Compile.Discovery
import SheetCompiler.Proofs.Compile.Reordering
import SheetCompiler.Proofs.Compile.Reach
import SheetCompiler.Proofs.Compile.NameOrder
import SheetCompiler.Proofs.Formula.Lexing
import SheetCompiler.Proofs.Formula.Writing
import SheetCompiler.Proofs.Python.Pieces
import SheetCompiler.Proofs.Python.Substitution
import SheetCompiler.Proofs.Compile.TextConstants
import SheetCompiler.Proofs.Formula.Tracing
import SheetCompiler.Proofs.Formula.ReferenceText
import SheetCompiler.Proofs.Alias.History
import SheetCompiler.Proofs.Compile.Tally
import SheetCompiler.Proofs.Compile.DeclaredOnce
import SheetCompiler.Proofs.Number.Sign
import SheetCompiler.Proofs.Python.Grouping
import SheetCompiler.Proofs.Python.Standing
import SheetCompiler.Proofs.Python.Mentions
import SheetCompiler.Proofs.Compile.InputReads
import SheetCompiler.Proofs.Block.Failure
import SheetCompiler.Proofs.Compile.Legality
import SheetCompiler.Proofs.Json.Entries
import SheetCompiler.Proofs.Workbook.CellMap
import SheetCompiler.Proofs.Workbook.Loading
import SheetCompiler.Proofs.Workbook.Reload
import SheetCompiler.Proofs.Python.StringLiterals
import SheetCompiler.Proofs.Python.Retranslation
import SheetCompiler.Proofs.Block.LongestRun
import SheetCompiler.Proofs.Block.MaximalAlignment
import SheetCompiler.Proofs.Block.Windows
import SheetCompiler.Proofs.Block.CommonFragments
import SheetCompiler.Proofs.Block.Capture
import SheetCompiler.Proofs.Number.PercentLiterals
import SheetCompiler.Proofs.Python.AttributeTexts
import SheetCompiler.Proofs.Text.Lines
import SheetCompiler.Proofs.Python.OneLine
import SheetCompiler.Proofs.Compile.OneLine
import SheetCompiler.Proofs.Compile.Comments
import SheetCompiler.Proofs.Grid.AddressText
import SheetCompiler.Proofs.Grid.Rectangle
import SheetCompiler.Proofs.Workbook.Scopes
import SheetCompiler.Proofs.Python.DiscoveredNames
import SheetCompiler.Proofs.Text.Wrapping
import SheetCompiler.Proofs.Json.Scalars
import SheetCompiler.Proofs.Json.Syntax
import SheetCompiler.Proofs.Json.Records
import SheetCompiler.Proofs.Config.ReadBack
import SheetCompiler.Proofs.Json.Doubles
import SheetCompiler.Proofs.Calendar.DateText
import SheetCompiler.Proofs.Workbook.DumpText
import SheetCompiler.Proofs.Text.Boundaries
import SheetCompiler.Proofs.Text.Slices
import SheetCompiler.Proofs.Formula.Placement
import SheetCompiler.Proofs.Formula.Progress
