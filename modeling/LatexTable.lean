import LatexTable.Check.Diagnostic
import LatexTable.Check.Table
import LatexTable.Color
import LatexTable.Column.Mapping
import LatexTable.Column.Spec
import LatexTable.Column.Width
import LatexTable.CommandLine.Arguments
import LatexTable.CommandLine.Request
import LatexTable.CommandLine.Run
import LatexTable.Decimal.Binary64
import LatexTable.Decimal.Rounding
import LatexTable.Delimited.Import
import LatexTable.Delimited.Records
import LatexTable.Dialect
import LatexTable.Document.Basic
import LatexTable.Document.Codec
import LatexTable.Document.Files
import LatexTable.Document.Format
import LatexTable.Document.Json.Reader
import LatexTable.Document.Json.Writer
import LatexTable.Document.Node
import LatexTable.Document.Scalar
import LatexTable.Document.Shape
import LatexTable.Document.Toml.Number
import LatexTable.Document.Toml.Reader
import LatexTable.Document.Toml.Table
import LatexTable.Document.Toml.Writer
import LatexTable.Document.Yaml.Chars
import LatexTable.Document.Yaml.Grammar
import LatexTable.Document.Yaml.Place
import LatexTable.Document.Yaml.Properties
import LatexTable.Document.Yaml.Reader
import LatexTable.Document.Yaml.Scalars
import LatexTable.Document.Yaml.Token
import LatexTable.Document.Yaml.Tokens
import LatexTable.Document.Yaml.Tree
import LatexTable.Document.Yaml.Values
import LatexTable.Document.Yaml.Writer
import LatexTable.Error
import LatexTable.InPlace
import LatexTable.Proofs.InPlace
import LatexTable.Proofs.Grid.InPlace
import LatexTable.Grid.Basic
import LatexTable.Grid.Cell
import LatexTable.Grid.Lines
import LatexTable.Grid.Merge
import LatexTable.Grid.Range
import LatexTable.Grid.Update
import LatexTable.Grid.Validate
import LatexTable.Latex.Boundary
import LatexTable.Latex.Frame
import LatexTable.Latex.Render
import LatexTable.Latex.RowUnit
import LatexTable.Latex.Source
import LatexTable.Latex.Tabular
import LatexTable.Latex.Tblr
import LatexTable.Main
import LatexTable.Options
import LatexTable.Packages
import LatexTable.Selection
import LatexTable.Session
import LatexTable.Style
import LatexTable.Text.Blank
import LatexTable.Text.DecimalDigits
import LatexTable.Text.Escape
import LatexTable.Text.Letters
import LatexTable.Proofs.Grid.Layout
import LatexTable.Proofs.Grid.Encoding
import LatexTable.Proofs.Grid.Lines
import LatexTable.Proofs.Grid.Deletion
import LatexTable.Proofs.Grid.Insertion
import LatexTable.Proofs.Grid.Merge
import LatexTable.Proofs.Grid.Reachable
import LatexTable.Proofs.Column.Registry
import LatexTable.Proofs.Session.Edit
import LatexTable.Proofs.Session.Document
import LatexTable.Proofs.Session.Reachable
import LatexTable.Proofs.Latex.RowTiling
import LatexTable.Proofs.Latex.UnitReader
import LatexTable.Proofs.Grid.Agreement
import LatexTable.Proofs.Latex.RowComparison
import LatexTable.Proofs.Column.Resolve
import LatexTable.Proofs.Latex.TabularLines
import LatexTable.Proofs.Latex.TabularReader
import LatexTable.Proofs.Latex.TblrEntry
import LatexTable.Proofs.Latex.TblrLines
import LatexTable.Proofs.Latex.TblrReader
import LatexTable.Proofs.Latex.Injective
import LatexTable.Proofs.Document.Merges
import LatexTable.Proofs.Document.Styles
import LatexTable.Proofs.Session.Snapshot
import LatexTable.Proofs.Session.Refusal
import LatexTable.Proofs.Text.Scan
import LatexTable.Proofs.Check.Errors
import LatexTable.Proofs.Latex.ClosedUnits
import LatexTable.Proofs.Grid.Transpose
import LatexTable.Proofs.Grid.Owner
import LatexTable.Proofs.Grid.LineEdit
import LatexTable.Proofs.Grid.Commutation
import LatexTable.Proofs.Session.Undo
import LatexTable.Proofs.Document.Acceptance
import LatexTable.Proofs.Text.Escape
import LatexTable.Proofs.Delimited.Import
import LatexTable.Proofs.Color
import LatexTable.Proofs.Document.Record
import LatexTable.Proofs.Document.Codec
import LatexTable.Proofs.Document.PathFormat
import LatexTable.Proofs.Document.Files
import LatexTable.Proofs.Column.Fitted
import LatexTable.Proofs.Latex.Fitted
import LatexTable.Proofs.Latex.Commands
import LatexTable.Proofs.Latex.ColumnTokens
import LatexTable.Proofs.Latex.TabularCommands
import LatexTable.Proofs.Latex.TblrCommands
import LatexTable.Proofs.Latex.EntryKeys
import LatexTable.Proofs.Packages
import LatexTable.Proofs.Session.Packages
import LatexTable.Proofs.Grid.MergeOrder
import LatexTable.Proofs.Grid.RowEdits
import LatexTable.Proofs.Guarded.Basic
import LatexTable.Proofs.Guarded.Store
import LatexTable.Proofs.Guarded.Cells
import LatexTable.Proofs.Guarded.Merge
import LatexTable.Proofs.Guarded.Lines
import LatexTable.Proofs.Guarded.Mirror
import LatexTable.Proofs.Guarded.Check
import LatexTable.Proofs.Guarded.Latex
import LatexTable.Proofs.Guarded.Session
import LatexTable.Proofs.Grid.MergeSplit
import LatexTable.Proofs.Latex.HeaderEntries
import LatexTable.Proofs.Column.Width
import LatexTable.Proofs.Column.Weight
import LatexTable.Proofs.Latex.ColumnSpecification
import LatexTable.Proofs.Column.Shares
import LatexTable.Proofs.Grid.Contents
import LatexTable.Proofs.Grid.Validation
import LatexTable.Proofs.Grid.StyleCommand
import LatexTable.Proofs.Check.DegradedColumns
import LatexTable.Proofs.Text.Unescape
import LatexTable.Proofs.Text.BackslashRuns
import LatexTable.Proofs.Text.BraceMatching
import LatexTable.Proofs.Grid.RangeCells
import LatexTable.Proofs.Grid.OwnerMap
import LatexTable.Proofs.Column.WidthGrammar
import LatexTable.Proofs.ColorExpression
