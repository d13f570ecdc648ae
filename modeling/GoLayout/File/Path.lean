import GoLayout.Text.Basic

/-! # Paths

    A path is a root and a list of names. Empty names and single dots are left out when a
    path is read; two dots stay, for only the file system knows what they mean. -/

namespace GoLayout

/-- A path: its root, empty where it is relative, and its names. -/
structure Path where
  root : Text
  names : List Text
  deriving Repr, DecidableEq

namespace Path

/-- The root of a path; of more than two slashes one counts. -/
def rootOf (t : Text) : Text :=
  if (t.takeWhile (· == '/')).length = 2 then ['/', '/']
  else if t.head? = some '/' then ['/']
  else []

/-- The path that a text names. -/
def ofText (t : Text) : Path :=
  ⟨rootOf t, (Text.splitOn '/' t).filter fun name => !name.isEmpty && name != ['.']⟩

/-- The path in its shortest spelling; the current directory is a dot. -/
def toText (p : Path) : Text :=
  if p.root.isEmpty && p.names.isEmpty then ['.'] else p.root ++ Text.joinWith ['/'] p.names

/-- The path of the directory that the last name stands in. -/
def parent (p : Path) : Path := { p with names := p.names.dropLast }

/-- The path of a file in a directory. -/
def child (p : Path) (name : Text) : Path := { p with names := p.names ++ [name] }

end Path

end GoLayout
