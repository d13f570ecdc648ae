import GoLayout.Target

/-! # Footprints

    The size and alignment of a type on a target. A measure says how the footprint follows
    from the word size. -/

namespace GoLayout

/-- Size and alignment of a type in bytes. -/
structure Footprint where
  size : Nat
  alignment : Nat
  deriving Repr, DecidableEq

/-- How a footprint follows from the word size: not at all, or as a number of words. -/
inductive Measure where
  | fixed (size alignment : Nat)
  | words (count : Nat)
  deriving Repr, DecidableEq

/-- The footprint on a target; words are aligned to a word. -/
def Measure.footprint (w : WordSize) : Measure → Footprint
  | fixed size alignment => ⟨size, alignment⟩
  | words count => ⟨count * w.bytes, w.bytes⟩

namespace Predeclared

/-- The predeclared types. Complex numbers are aligned like their parts; a string is a
    pointer and a length, an interface value a type and a pointer. -/
def table : List (Text × Measure) :=
  [("bool", .fixed 1 1), ("int8", .fixed 1 1), ("uint8", .fixed 1 1), ("byte", .fixed 1 1),
    ("int16", .fixed 2 2), ("uint16", .fixed 2 2), ("int32", .fixed 4 4), ("uint32", .fixed 4 4),
    ("rune", .fixed 4 4), ("int64", .fixed 8 8), ("uint64", .fixed 8 8), ("float32", .fixed 4 4),
    ("float64", .fixed 8 8), ("complex64", .fixed 8 4), ("complex128", .fixed 16 8),
    ("int", .words 1), ("uint", .words 1), ("uintptr", .words 1), ("string", .words 2),
    ("any", .words 2), ("error", .words 2)]

/-- The measure of a predeclared type. -/
def measure? (name : Text) : Option Measure := table.lookup name

/-- Is the text the name of a predeclared type? -/
def isName (name : Text) : Bool := (measure? name).isSome

end Predeclared

end GoLayout
