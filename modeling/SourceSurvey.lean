import SourceSurvey.Calendar
import SourceSurvey.Cli.Command
import SourceSurvey.Cli.Options
import SourceSurvey.Cli.Run
import SourceSurvey.Disk
import SourceSurvey.Document
import SourceSurvey.Dump
import SourceSurvey.Grammar
import SourceSurvey.Import.Form
import SourceSurvey.Import.Lexeme
import SourceSurvey.Import.Specifiers
import SourceSurvey.Keyed
import SourceSurvey.Log
import SourceSurvey.Main
import SourceSurvey.Marking.Action
import SourceSurvey.Marking.Guard
import SourceSurvey.Marking.Mark
import SourceSurvey.Marking.Markings
import SourceSurvey.Marking.Rules
import SourceSurvey.Marking.Visit
import SourceSurvey.Marking.Walk
import SourceSurvey.Number.Double
import SourceSurvey.Outline
import SourceSurvey.Path.Basic
import SourceSurvey.Path.Location
import SourceSurvey.Report.Attention
import SourceSurvey.Report.Dependency
import SourceSurvey.Report.DirectoryGroup
import SourceSurvey.Resolver
import SourceSurvey.Scan
import SourceSurvey.Settings.Basic
import SourceSurvey.Settings.Value
import SourceSurvey.Survey
import SourceSurvey.Table
import SourceSurvey.Text.Blank
import SourceSurvey.Text.CodeRange
import SourceSurvey.Text.Escape
import SourceSurvey.Text.Lines
import SourceSurvey.Text.Printable
import SourceSurvey.Text.Quoted
import SourceSurvey.Text.UpperCase
import SourceSurvey.Text.Utf8
import SourceSurvey.Text.Word
import SourceSurvey.Toml.Reader
import SourceSurvey.Toml.Scalar
import SourceSurvey.Toml.Table
import SourceSurvey.Trail.Basic
import SourceSurvey.Trail.Pattern
import SourceSurvey.Trail.Rule
import SourceSurvey.Tree.Arena
import SourceSurvey.Tree.Cursor
import SourceSurvey.Tree.FlatNode
import SourceSurvey.Tree.Respacing
import SourceSurvey.Tree.SyntaxTree
import SourceSurvey.Proofs.Scan.Round
import SourceSurvey.Proofs.Scan.Traversal
import SourceSurvey.Proofs.Scan.Frontier
import SourceSurvey.Proofs.Scan.Reach
import SourceSurvey.Proofs.Resolver
import SourceSurvey.Proofs.Scan.History
import SourceSurvey.Proofs.Tree.Chain
import SourceSurvey.Proofs.Tree.Indexing
import SourceSurvey.Proofs.Tree.Placement
import SourceSurvey.Proofs.Marking.Choice
import SourceSurvey.Proofs.Marking.Inner
import SourceSurvey.Proofs.Marking.Overlay
import SourceSurvey.Proofs.Marking.Locality
import SourceSurvey.Proofs.Marking.Performing
import SourceSurvey.Proofs.Marking.Program
import SourceSurvey.Proofs.Path.Segments
import SourceSurvey.Proofs.Path.Relative
import SourceSurvey.Proofs.Scan.Sources
import SourceSurvey.Proofs.Text.Utf8
import SourceSurvey.Proofs.Tree.Listing
import SourceSurvey.Proofs.Marking.Writes
import SourceSurvey.Proofs.Survey.Result
import SourceSurvey.Proofs.Survey.Lines
import SourceSurvey.Proofs.Marking.Failure
import SourceSurvey.Proofs.Disk
import SourceSurvey.Proofs.Survey.Reports
import SourceSurvey.Proofs.Marking.Places
import SourceSurvey.Proofs.Marking.Exports
import SourceSurvey.Proofs.Marking.Declared
import SourceSurvey.Proofs.Tree.Navigation
import SourceSurvey.Proofs.Text.Encoding
import SourceSurvey.Proofs.Tree.Respacing
import SourceSurvey.Proofs.Import.Specifiers
import SourceSurvey.Proofs.Marking.ImportPaths
import SourceSurvey.Proofs.Survey.ImportPaths
import SourceSurvey.Proofs.Tree.Constructs
import SourceSurvey.Proofs.Marking.Brackets
import SourceSurvey.Proofs.Tree.Nesting
import SourceSurvey.Proofs.Report.Indentation
import SourceSurvey.Proofs.Marking.Form
import SourceSurvey.Proofs.Table
import SourceSurvey.Proofs.Tree.Strict
import SourceSurvey.Proofs.Marking.Strict
import SourceSurvey.Proofs.Marking.Missing
import SourceSurvey.Proofs.Report.AttentionTable
import SourceSurvey.Proofs.Path.Directory
import SourceSurvey.Proofs.Report.Directories
import SourceSurvey.Proofs.Report.Diagrams
import SourceSurvey.Proofs.Import.Lexing
import SourceSurvey.Proofs.Import.Blanking
import SourceSurvey.Proofs.Import.FirstQuote
import SourceSurvey.Proofs.Import.Search
import SourceSurvey.Proofs.Import.SourceLines
import SourceSurvey.Proofs.Import.Statements
import SourceSurvey.Proofs.Path.Normal
import SourceSurvey.Proofs.Resolution
import SourceSurvey.Proofs.Outline.Levels
import SourceSurvey.Proofs.Outline.Nesting
import SourceSurvey.Proofs.Tree.ChainText
import SourceSurvey.Proofs.Tree.Patterns
import SourceSurvey.Proofs.Marking.Conflicts
import SourceSurvey.Proofs.Marking.Tags
import SourceSurvey.Proofs.Marking.Bindings
import SourceSurvey.Proofs.Marking.Components
import SourceSurvey.Proofs.Tree.Passage
import SourceSurvey.Proofs.Marking.Properties
import SourceSurvey.Proofs.Trail.Thinning
import SourceSurvey.Proofs.Tree.Subtrees
import SourceSurvey.Proofs.Text.Decoding
import SourceSurvey.Proofs.Settings
import SourceSurvey.Proofs.Tree.Solid
import SourceSurvey.Proofs.Marking.Labels
import SourceSurvey.Proofs.Outline.Compression
import SourceSurvey.Proofs.Trail.Written
