import GoLayout.Analysis
import GoLayout.Report.MemoryMap

/-! # Reports

    The texts that describe fields and structs to a reader. -/

namespace GoLayout

namespace Placement

/-- The short label of a field. -/
def label (p : Placement) : Text :=
  Text.concat [Decimal.ofInt p.size, "B",
    if p.paddingBefore > 0 then
      Text.concat [" (+", Decimal.ofInt p.paddingBefore, "B padding)"]
    else []]

/-- The lines that describe a field. -/
def tooltip (p : Placement) : Text :=
  Text.joinWith ['\n'] <|
    [Text.concat ["Size: ", Decimal.ofInt p.size, " bytes"],
      Text.concat ["Alignment: ", Decimal.ofInt p.alignment, " bytes"],
      Text.concat ["Offset: ", Decimal.ofInt p.offset, " bytes"]] ++
    if p.paddingBefore > 0 then
      [Text.concat ["Padding before: ", Decimal.ofInt p.paddingBefore, " bytes"]]
    else []

end Placement

/-- The lines that describe a struct as a whole. -/
def Layout.summary (l : Layout) : Text :=
  Text.joinWith ['\n']
    [Text.concat ["struct ", l.name],
      Text.concat ["Total size: ", Decimal.ofInt l.totalSize, " bytes"],
      Text.concat ["Alignment: ", Decimal.ofInt l.alignment, " bytes"],
      Text.concat ["Fields: ", Decimal.ofNat l.fields.length]]

/-- The warning about a struct that would shrink. -/
def Optimality.warning (o : Optimality) : Text :=
  Text.concat ["Struct layout can be optimized: ", Decimal.ofInt o.currentSize, " bytes → ",
    Decimal.ofInt o.optimalSize, " bytes (saves ", Decimal.ofInt o.savings, " bytes)"]

namespace Analysis

/-- The first line of a report. -/
def headline (a : Analysis) : Text :=
  Text.concat [a.name, " (line ", Decimal.ofNat (a.declaration.line + 1), "): ",
    Decimal.ofInt a.layout.totalSize, " bytes, align ", Decimal.ofInt a.layout.alignment]

/-- The width of the longest field name. -/
def nameWidth (a : Analysis) : Nat :=
  (a.declaration.fields.map (·.name.length)).foldl max 0

/-- The lines of the fields, their names padded to one width. -/
def fieldLines (a : Analysis) : List Text :=
  (a.declaration.fields.zip a.layout.fields).map fun (f, p) =>
    Text.concat ["  ", Text.padRight a.nameWidth f.name, "  ", f.type, "  @",
      Decimal.ofInt p.offset, "  ", p.label]

/-- The lines of the memory map, moved to the right. -/
def mapLines (a : Analysis) : List Text :=
  if a.layout.memoryMap.isEmpty then []
  else (Text.splitOn '\n' a.layout.memoryMap).map fun line => Text.concat ["    ", line]

/-- The lines of the warning and of the suggested order. -/
def warningLines (a : Analysis) : List Text :=
  [Text.concat ["  warning[struct-layout-optimization]: ", a.optimality.warning],
    Text.concat ["  suggested order: ", Text.joinWith ", " a.optimality.order]]

/-- The report of a struct, with or without the lines of its fields and the warning. -/
def report (annotations warnings : Bool) (a : Analysis) : Text :=
  Text.joinWith ['\n'] <|
    [a.headline] ++ (if annotations then a.fieldLines else []) ++ a.mapLines ++
      if warnings && a.optimality.isOptimizable then a.warningLines else []

end Analysis

end GoLayout
