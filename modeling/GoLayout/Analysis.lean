import GoLayout.Document.Basic
import GoLayout.Layout.Packing

/-! # Analyses

    What is computed for the structs of a document, and how a cursor or a name finds one.
    A struct whose size has too many digits ends the analysis of its document. -/

namespace GoLayout

/-- A declaration with its layout and the comparison with the best order. -/
structure Analysis where
  declaration : Declaration
  layout : Layout
  optimality : Optimality
  deriving Repr, DecidableEq

namespace Analysis

/-- The name of the struct. -/
def name (a : Analysis) : Text := a.declaration.name

/-- The analysis of a declaration on a target. -/
def ofDeclaration (w : WordSize) (d : Declaration) : Except Decimal.TooManyDigits Analysis :=
  (d.layout w).map fun l => ⟨d, l, d.optimality w l⟩

/-- What is reported while a declaration is analysed. -/
def records (w : WordSize) (d : Declaration) : List Log.Record :=
  d.sizingRecords w ++
    match ofDeclaration w d with
    | .ok a =>
      Declaration.layoutRecord a.layout :: d.sizingRecords w ++
        Declaration.optimalityRecords a.optimality
    | .error _ => []

/-- The number of the field whose name is under a cursor. -/
def fieldIndexAt? (a : Analysis) (line column : Int) : Option Nat :=
  a.declaration.fields.findIdx? (·.location.contains line column)

/-- The field whose name is under a cursor. -/
def fieldAt? (a : Analysis) (line column : Int) : Option Field :=
  a.declaration.fields.find? (·.location.contains line column)

/-- The place of the field with a given number. -/
def placement? (a : Analysis) (index : Nat) : Option Placement := a.layout.fields[index]?

/-- The field under a cursor with its place. -/
def placedFieldAt? (a : Analysis) (line column : Int) : Option (Field × Placement) := do
  let index ← a.fieldIndexAt? line column
  let field ← a.declaration.fields[index]?
  let placement ← a.placement? index
  return (field, placement)

/-- The first struct whose region holds a cursor. -/
def structAt? (analyses : List Analysis) (line column : Int) : Option Analysis :=
  analyses.find? (·.declaration.span.contains line column)

/-- The first struct with a given name. -/
def named? (analyses : List Analysis) (name : Text) : Option Analysis :=
  analyses.find? (·.name = name)

/-- The structs that would shrink; none where warnings are off. -/
def optimizable (warnings : Bool) (analyses : List Analysis) : List Analysis :=
  if warnings then analyses.filter (·.optimality.isOptimizable) else []

end Analysis

/-- How far the analysis of some declarations came: the structs that were completed, and the
    reason why it stopped, if it did. -/
structure Progressed where
  analyses : List Analysis
  stopped : Option Decimal.TooManyDigits
  records : List Log.Record
  deriving Repr, DecidableEq

namespace Progressed

/-- The analyses of declarations in order, up to the first that has none. -/
def ofDeclarations (w : WordSize) : List Declaration → Progressed
  | [] => ⟨[], none, []⟩
  | d :: ds =>
    match Analysis.ofDeclaration w d with
    | .ok a =>
      let rest := ofDeclarations w ds
      ⟨a :: rest.analyses, rest.stopped, Analysis.records w d ++ rest.records⟩
    | .error e => ⟨[], some e, Analysis.records w d⟩

/-- The analysis of a document. -/
def ofSource (w : WordSize) (allNames : Bool) (source : Text) : Progressed :=
  let p := ofDeclarations w (Document.declarations allNames source)
  { p with
    records :=
      Document.records allNames source ++ p.records ++
        if p.stopped.isSome then []
        else [.debug .analysis ["Analyzed ", Decimal.ofNat p.analyses.length, " structs for ",
          Decimal.ofNat w.bytes, "-byte words"]] }

/-- The analyses of all declarations, or the reason why there are none. -/
def result (p : Progressed) : Except Decimal.TooManyDigits (List Analysis) :=
  match p.stopped with
  | some e => .error e
  | none => .ok p.analyses

end Progressed

end GoLayout
