import GoLayout.Text.Decimal

/-! # Layouts

    Where the fields of a struct lie in memory. The numbers are integers: a layout that is
    given from outside need not be consistent, and its derived numbers may be negative. -/

namespace GoLayout

/-- The place of one field in its struct, in bytes. -/
structure Placement where
  name : Text
  type : Text
  size : Int
  alignment : Int
  offset : Int
  paddingBefore : Int
  deriving Repr, DecidableEq

/-- The first byte after the field. -/
def Placement.endOffset (p : Placement) : Int := p.offset + p.size

/-- The layout of a struct, its fields in declared order. -/
structure Layout where
  name : Text
  fields : List Placement
  totalSize : Int
  alignment : Int
  deriving Repr, DecidableEq

namespace Layout

/-- The bytes that hold values. -/
def dataSize (l : Layout) : Int := l.fields.foldr (fun p total => p.size + total) 0

/-- The end of the last field, or zero where there is none. -/
def lastEnd (l : Layout) : Int :=
  match l.fields.getLast? with
  | some p => p.endOffset
  | none => 0

/-- The bytes after the last field. -/
def trailingPadding (l : Layout) : Int := l.totalSize - l.lastEnd

/-- The bytes that hold no value. -/
def totalPadding (l : Layout) : Int := l.totalSize - l.dataSize

/-- The first field with a given name. -/
def field? (l : Layout) (name : Text) : Option Placement := l.fields.find? (·.name = name)

end Layout

/-- How the declared order of a struct compares with the best one. -/
structure Optimality where
  name : Text
  currentSize : Int
  optimalSize : Int
  order : List Text
  deriving Repr, DecidableEq

namespace Optimality

/-- Would the struct shrink? -/
def isOptimizable (o : Optimality) : Bool := o.optimalSize < o.currentSize

/-- The bytes that the best order saves. -/
def savings (o : Optimality) : Int := o.currentSize - o.optimalSize

end Optimality

end GoLayout
