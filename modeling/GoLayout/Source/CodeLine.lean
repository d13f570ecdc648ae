import GoLayout.Source.Comment

/-! # Lines of code

    The unit of reading: a numbered source line with the code that is left of it from some
    column on. A document is read as its lines without carriage returns at their ends. -/

namespace GoLayout

/-- A source line, its code from a column on, and whether a block comment is open at its
    end. -/
structure CodeLine where
  number : Nat
  raw : Text
  column : Nat
  code : Text
  inBlock : Bool
  deriving Repr, DecidableEq

namespace CodeLine

/-- A whole source line, given whether a block comment is open at its start. -/
def ofRaw (number : Nat) (raw : Text) (inBlock : Bool) : CodeLine :=
  let r := Comment.strip raw inBlock
  ⟨number, raw, 0, r.1, r.2⟩

/-- The line behind the first opening brace of its code. -/
def afterBrace? (l : CodeLine) : Option CodeLine :=
  (Text.cutAt? '{' l.code).map fun (before, after) =>
    { l with column := l.column + before.length + 1, code := after }

end CodeLine

/-- The lines of a document. -/
def sourceLines (source : Text) : List Text :=
  (Text.splitOn '\n' source).map (Text.dropTrailing '\r')

end GoLayout
