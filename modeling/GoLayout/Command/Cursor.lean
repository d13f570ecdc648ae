import GoLayout.Text.Decimal
import GoLayout.Text.Quoted

/-! # Cursors

    The place of a cursor as an argument gives it: line and column with a colon between them,
    both counted from one. -/

namespace GoLayout

/-- A place in a document; line and column count from zero. -/
structure Cursor where
  line : Int
  column : Int
  deriving Repr, DecidableEq

namespace Cursor

/-- Why a text is no place. -/
inductive Fault where
  | malformed (t : Text)
  | beforeStart (t : Text)
  deriving Repr, DecidableEq

/-- The wording of a text that is no place. -/
def Fault.message : Fault → Text
  | malformed t => Text.concat ["expected LINE:COL, got ", t.quoted]
  | beforeStart t => Text.concat ["LINE and COL start at 1, got ", t.quoted]

/-- The two numbers of a text, if there are two. -/
def numbers? (t : Text) : Option (Int × Int) := do
  let (before, after) ← Text.cutAt? ':' t
  let line ← Decimal.readInt? before
  let column ← Decimal.readInt? after
  return (line, column)

/-- The place that a text denotes. -/
def read (t : Text) : Except Fault Cursor :=
  match numbers? t with
  | none => .error (.malformed t)
  | some (line, column) =>
    if line < 1 || column < 1 then .error (.beforeStart t) else .ok ⟨line - 1, column - 1⟩

/-- The text of a place, counted from one. -/
def toText (c : Cursor) : Text :=
  Text.concat [Decimal.ofInt (c.line + 1), ":", Decimal.ofInt (c.column + 1)]

end Cursor

end GoLayout
