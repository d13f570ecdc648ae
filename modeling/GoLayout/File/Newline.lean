import GoLayout.Text.Basic

/-! # Line ends

    A text file may end a line with a line feed, with a carriage return, or with a carriage
    return and a line feed; what is read from it has line feeds only. -/

namespace GoLayout.Newline

/-- What has been read: the characters so far, last one first, and whether the last one was a
    carriage return. -/
structure Reader where
  done : Text
  afterReturn : Bool
  deriving Repr, DecidableEq

/-- The state behind a character. -/
def Reader.read (r : Reader) (c : Char) : Reader :=
  if c = '\r' then ⟨'\n' :: r.done, true⟩
  else if c = '\n' && r.afterReturn then ⟨r.done, false⟩
  else ⟨c :: r.done, false⟩

/-- The text with a line feed at every line end. -/
def unify (t : Text) : Text := (t.foldl Reader.read ⟨[], false⟩).done.reverse

end GoLayout.Newline
