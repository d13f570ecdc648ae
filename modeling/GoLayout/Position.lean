/-! # Positions

    Places in a document: the line and columns of one identifier, and regions of whole
    declarations. Lines and columns count from zero. Both ends of either belong to it, so
    that a cursor right after the last character still touches the place. A cursor may stand
    anywhere, also before the document, so the tests are about integers. -/

namespace GoLayout

/-- The place of an identifier on a line; the end column is the one after its last
    character. -/
structure Location where
  line : Nat
  startColumn : Nat
  endColumn : Nat
  deriving Repr, DecidableEq

/-- Is a cursor at the line and column on one of the columns from the first to the last of a
    place on one line? -/
def Location.covers (place first last line column : Int) : Bool :=
  line = place && first ≤ column && column ≤ last

/-- Is a cursor at the line and column on the identifier or right behind it? -/
def Location.contains (l : Location) (line column : Int) : Bool :=
  covers l.line l.startColumn l.endColumn line column

/-- A region from a place on one line to a place on another. -/
structure Span where
  startLine : Nat
  startColumn : Nat
  endLine : Nat
  endColumn : Nat
  deriving Repr, DecidableEq

/-- Is a cursor at the line and column between a first and a last position? Columns matter on
    the first and on the last line only. -/
def Span.covers (startLine startColumn endLine endColumn line column : Int) : Bool :=
  startLine ≤ line && line ≤ endLine &&
    !(line = startLine && column < startColumn) &&
    !(line = endLine && column > endColumn)

/-- Is a cursor at the line and column inside the region? -/
def Span.contains (s : Span) (line column : Int) : Bool :=
  covers s.startLine s.startColumn s.endLine s.endColumn line column

end GoLayout
