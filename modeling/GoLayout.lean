import GoLayout.Analysis
import GoLayout.Command.Cursor
import GoLayout.Command.Help
import GoLayout.Command.Options
import GoLayout.Command.Run
import GoLayout.Command.Selection
import GoLayout.Command.Word
import GoLayout.Declaration
import GoLayout.Document.Basic
import GoLayout.Document.Body
import GoLayout.Document.FieldRun
import GoLayout.Elapsed
import GoLayout.EnvFile.Basic
import GoLayout.EnvFile.Reference
import GoLayout.EnvFile.Statement
import GoLayout.FieldLine.Column
import GoLayout.FieldLine.Shape
import GoLayout.FieldLine.Tag
import GoLayout.File.Newline
import GoLayout.File.Path
import GoLayout.File.Tree
import GoLayout.File.Utf8
import GoLayout.Layout.Basic
import GoLayout.Layout.Packing
import GoLayout.Log.Record
import GoLayout.Log.Setup
import GoLayout.Main
import GoLayout.Position
import GoLayout.Progress.Activity
import GoLayout.Progress.Counters
import GoLayout.Progress.Journal
import GoLayout.Proofs.Command.FileByFile
import GoLayout.Proofs.Command.Finish
import GoLayout.Proofs.Command.Selection
import GoLayout.Proofs.Command.Start
import GoLayout.Proofs.Document.Body
import GoLayout.Proofs.Document.BodyLines
import GoLayout.Proofs.Document.BodyPlaces
import GoLayout.Proofs.Document.Chunk
import GoLayout.Proofs.Document.Commented
import GoLayout.Proofs.Document.Composition
import GoLayout.Proofs.Document.FieldPlaces
import GoLayout.Proofs.Document.FieldRun
import GoLayout.Proofs.Document.FirstNames
import GoLayout.Proofs.Document.JoinedSegments
import GoLayout.Proofs.Document.Lookup
import GoLayout.Proofs.Document.NamesInCode
import GoLayout.Proofs.Document.NestedLines
import GoLayout.Proofs.Document.OutsideBodies
import GoLayout.Proofs.Document.QuotedHeader
import GoLayout.Proofs.Document.Reading
import GoLayout.Proofs.Document.RestingLine
import GoLayout.Proofs.Document.RunPlaces
import GoLayout.Proofs.Document.Spans
import GoLayout.Proofs.Document.Struct
import GoLayout.Proofs.Document.TypeGroup
import GoLayout.Proofs.Document.Unterminated
import GoLayout.Proofs.EnvFile.Loading
import GoLayout.Proofs.FieldLine.Column
import GoLayout.Proofs.FieldLine.Grammar
import GoLayout.Proofs.FieldLine.NamesInOrder
import GoLayout.Proofs.FieldLine.Placing
import GoLayout.Proofs.FieldLine.Shape
import GoLayout.Proofs.FieldLine.Tag
import GoLayout.Proofs.FieldLine.Trailer
import GoLayout.Proofs.File.LineEnds
import GoLayout.Proofs.File.Utf8
import GoLayout.Proofs.Layout.BestOrder
import GoLayout.Proofs.Layout.DigitLimit
import GoLayout.Proofs.Layout.FewerFields
import GoLayout.Proofs.Layout.Padding
import GoLayout.Proofs.Layout.Placement
import GoLayout.Proofs.Layout.Savings
import GoLayout.Proofs.Layout.SuggestedOrder
import GoLayout.Proofs.Layout.WordSizes
import GoLayout.Proofs.Progress.SessionCounts
import GoLayout.Proofs.Report.MemoryMap
import GoLayout.Proofs.Settings.Sources
import GoLayout.Proofs.Source.Braces
import GoLayout.Proofs.Source.Bracket
import GoLayout.Proofs.Source.Closed
import GoLayout.Proofs.Source.Header
import GoLayout.Proofs.Source.Lexer
import GoLayout.Proofs.Source.LiveColumns
import GoLayout.Proofs.Source.Plain
import GoLayout.Proofs.Source.RawString
import GoLayout.Proofs.Source.Segment
import GoLayout.Proofs.Source.Spelling
import GoLayout.Proofs.Source.WholeWord
import GoLayout.Proofs.Syntax.BodySyntax
import GoLayout.Proofs.Syntax.FieldSyntax
import GoLayout.Proofs.Syntax.GoType
import GoLayout.Proofs.Syntax.Printed
import GoLayout.Proofs.Text.Decimal
import GoLayout.Proofs.Text.Lines
import GoLayout.Proofs.TypeExpr.ArrayLength
import GoLayout.Proofs.TypeExpr.IntLiteral
import GoLayout.Proofs.TypeExpr.Packable
import GoLayout.Proofs.TypeExpr.Regular
import GoLayout.Proofs.TypeExpr.Sizing
import GoLayout.Proofs.TypeExpr.Syntax
import GoLayout.Report.Json
import GoLayout.Report.MemoryMap
import GoLayout.Report.Summary
import GoLayout.Session
import GoLayout.Settings.Basic
import GoLayout.Settings.Config
import GoLayout.Settings.Environment
import GoLayout.Source.Bracket
import GoLayout.Source.CodeLine
import GoLayout.Source.Comment
import GoLayout.Source.Header
import GoLayout.Source.Literal
import GoLayout.Source.Segment
import GoLayout.Target
import GoLayout.Text.Basic
import GoLayout.Text.Blank
import GoLayout.Text.CodeRange
import GoLayout.Text.Decimal
import GoLayout.Text.FixedPlaces
import GoLayout.Text.Identifier
import GoLayout.Text.Printable
import GoLayout.Text.Quoted
import GoLayout.Text.Word
import GoLayout.TypeExpr.ArrayLength
import GoLayout.TypeExpr.Footprint
import GoLayout.TypeExpr.Form
