import GoLayout.Command.Options
import GoLayout.Report.Json
import GoLayout.Report.Summary

/-! # What a run reports

    Of the structs of a file a run reports those that were asked for, as text or as JSON. -/

namespace GoLayout.Command

/-- The structs that the options ask for, from among those of a file. -/
def Options.select (o : Options) (warnings : Bool) (analyses : List Analysis) :
    List Analysis :=
  let named :=
    match o.structName with
    | some name => (Analysis.named? analyses name).toList
    | none => analyses
  let placed :=
    match o.cursor with
    | some c => (Analysis.structAt? named c.line c.column).toList
    | none => named
  if o.onlyOptimizable then Analysis.optimizable warnings placed else placed

/-- The structs of a file that are reported. -/
structure FileReport where
  path : Path
  analyses : List Analysis
  deriving Repr, DecidableEq

/-- The lines about the field under a cursor. -/
def fieldNote (a : Analysis) (c : Cursor) : List Text :=
  match a.placedFieldAt? c.line c.column with
  | some (f, p) => [Text.concat [f.name, " ", f.type, ['\n'], p.tooltip]]
  | none => []

namespace FileReport

/-- The headline of a file. -/
def headline (c : Config) (r : FileReport) : Text :=
  Text.concat ["== ", r.path.toText, " (", c.architecture, ", ", Decimal.ofInt c.wordSize,
    "-byte words) =="]

/-- The blocks of a struct. -/
def blocksOf (c : Config) (cursor : Option Cursor) (a : Analysis) : List Text :=
  a.report c.annotations c.warnings ::
    match cursor with
    | some place => fieldNote a place
    | none => []

/-- The blocks of a file. -/
def blocks (c : Config) (cursor : Option Cursor) (r : FileReport) : List Text :=
  r.headline c :: r.analyses.flatMap (blocksOf c cursor)

/-- The facts about a file. -/
def toJson (r : FileReport) : JsonValue :=
  .object [("path", .text r.path.toText), ("structs", .list (r.analyses.map Analysis.toJson))]

end FileReport

/-- The text of a run, its blocks divided by empty lines. -/
def textReport (c : Config) (cursor : Option Cursor) (reports : List FileReport) : Text :=
  Text.joinWith ['\n', '\n'] (reports.flatMap (FileReport.blocks c cursor))

/-- The JSON text of a run. -/
def jsonReport (c : Config) (reports : List FileReport) : Text :=
  JsonValue.print 0 <|
    .object [("architecture", .text c.architecture), ("word_size", .int c.wordSize),
      ("files", .list (reports.map FileReport.toJson))]

end GoLayout.Command
