import GoLayout.File.Newline
import GoLayout.File.Path
import GoLayout.File.Utf8
import GoLayout.Text.Quoted

/-! # File trees

    The files below the current directory, how a path leads to one of them or fails to, and
    how files and directories are added. Two dots lead from a directory to the one above it,
    and from the root back to it. Beyond the current directory there is nothing but the
    directories above it. Source files are read as UTF-8 text. -/

namespace GoLayout

/-- Why a path leads to no file, or to none that can be used. -/
inductive PathFault where
  | missing (path : Path)
  | isDirectory (path : Path)
  | notDirectory (path : Path)
  | occupied (path : Path)
  | nameTooLong (path : Path)
  | other (path : Path) (code : Nat) (reason : Text)
  | nullCharacter
  deriving Repr, DecidableEq

/-- The wording of a path that leads to no file. -/
def PathFault.message : PathFault → Text
  | missing p => Text.concat ["[Errno 2] No such file or directory: ", p.toText.quoted]
  | isDirectory p => Text.concat ["[Errno 21] Is a directory: ", p.toText.quoted]
  | notDirectory p => Text.concat ["[Errno 20] Not a directory: ", p.toText.quoted]
  | occupied p => Text.concat ["[Errno 17] File exists: ", p.toText.quoted]
  | nameTooLong p => Text.concat ["[Errno 36] File name too long: ", p.toText.quoted]
  | other p code reason =>
    Text.concat ["[Errno ", Decimal.ofNat code, "] ", reason, ": ", p.toText.quoted]
  | nullCharacter => "embedded null byte"

/-- Why a file cannot be read as text. -/
inductive ReadFault where
  | path (fault : PathFault)
  | encoding (fault : Utf8.Fault)
  deriving Repr, DecidableEq

namespace ReadFault

/-- The wording of a file that cannot be read. -/
def message : ReadFault → Text
  | path f => f.message
  | encoding f => f.message

/-- Does only the file fail, and not the whole run? A null character in a path is no fault of
    a file. -/
def isFileFault : ReadFault → Bool
  | path .nullCharacter => false
  | _ => true

end ReadFault

/-- The text of a file with the given bytes. -/
def textOfBytes (bytes : List UInt8) : Except ReadFault Text :=
  match Utf8.decode bytes with
  | .ok t => .ok (Newline.unify t)
  | .error f => .error (.encoding f)

/-- The files below the current directory by their names, and further directories. -/
structure FileTree where
  files : List (List Text × List UInt8)
  directories : List (List Text)
  deriving Repr, DecidableEq

/-- What stands in a file tree: a file with its names and bytes, a directory with its names, or
    something beyond the current directory. -/
inductive FileTree.Node where
  | file (names : List Text) (bytes : List UInt8)
  | directory (names : List Text)
  | outside
  deriving Repr, DecidableEq

/-- Where a path ends: at something, or at names that are still free. -/
inductive FileTree.Place where
  | taken (node : FileTree.Node)
  | free (names : List Text)
  deriving Repr, DecidableEq

namespace FileTree

/-- No files. -/
def empty : FileTree := ⟨[], []⟩

/-- Are the names those of a directory? -/
def isDirectory (tree : FileTree) (names : List Text) : Bool :=
  names.isEmpty || tree.directories.any names.isPrefixOf ||
    tree.files.any fun (file, _) => names.isPrefixOf file && names.length < file.length

/-- The most bytes that a name may have. -/
def nameLimit : Nat := 255

/-- The most bytes that a path may have. -/
def pathLimit : Nat := 4095

/-- The number of bytes of a text in a file system. -/
def byteCount (t : Text) : Nat := t.foldr (fun c total => c.utf8Size + total) 0

/-- Where names lead to from a directory beyond the current one; the path is for messages. -/
def walkBeyond (path : Path) : List Text → Except PathFault Place
  | [] => .ok (.taken .outside)
  | name :: more =>
    if nameLimit < byteCount name then .error (.nameTooLong path)
    else if name = ['.', '.'] then walkBeyond path more
    else .error (.missing path)

/-- Where names lead to from a directory; the path is for messages. -/
def walk (tree : FileTree) (path : Path) (here : List Text) :
    List Text → Except PathFault Place
  | [] => .ok (.taken (.directory here))
  | name :: more =>
    if nameLimit < byteCount name then .error (.nameTooLong path)
    else if name = ['.', '.'] then
      if here.isEmpty then walkBeyond path more else walk tree path here.dropLast more
    else
      let next := here ++ [name]
      if tree.isDirectory next then walk tree path next more
      else
        match tree.files.lookup next with
        | some bytes =>
          if more.isEmpty then .ok (.taken (.file next bytes)) else .error (.notDirectory path)
        | none => if more.isEmpty then .ok (.free next) else .error (.missing path)

/-- Where a path ends. -/
def place (tree : FileTree) (path : Path) : Except PathFault Place :=
  if path.names.any (·.contains '\x00') then .error .nullCharacter
  else if pathLimit < byteCount path.toText then .error (.nameTooLong path)
  else if path.root.isEmpty then walk tree path [] path.names
  else walkBeyond path path.names

/-- What a path leads to. -/
def node (tree : FileTree) (path : Path) : Except PathFault Node :=
  match tree.place path with
  | .ok (.taken node) => .ok node
  | .ok (.free _) => .error (.missing path)
  | .error f => .error f

/-- The bytes of a file. -/
def bytes (tree : FileTree) (path : Path) : Except PathFault (List UInt8) :=
  match tree.node path with
  | .ok (.file _ bytes) => .ok bytes
  | .ok _ => .error (.isDirectory path)
  | .error f => .error f

/-- The text of a file. -/
def read (tree : FileTree) (path : Path) : Except ReadFault Text :=
  match tree.bytes path with
  | .ok bytes => textOfBytes bytes
  | .error f => .error (.path f)

/-- The names of the directory at a path. -/
def directoryAt? (tree : FileTree) (path : Path) : Option (List Text) :=
  match tree.node path with
  | .ok (.directory names) => some names
  | _ => none

/-- The tree with a directory, which may be there already. -/
def addDirectory (tree : FileTree) (path : Path) : Except PathFault FileTree :=
  match tree.place path with
  | .ok (.free names) => .ok { tree with directories := names :: tree.directories }
  | .ok (.taken (.file _ _)) => .error (.occupied path)
  | .ok (.taken _) => .ok tree
  | .error f => .error f

/-- Adds a directory whose names are given last first, and the directories above it where they
    are missing: what went wrong, if anything did, and the tree behind it. Nothing is made
    beyond the current directory. -/
def addDirectories (tree : FileTree) (root : Text) : List Text → Option PathFault × FileTree
  | [] => (none, tree)
  | name :: above =>
    let path : Path := ⟨root, (name :: above).reverse⟩
    match tree.addDirectory path with
    | .ok tree => (none, tree)
    | .error (.missing _) =>
      match tree.addDirectories root above with
      | (none, tree) =>
        match tree.addDirectory path with
        | .ok tree => (none, tree)
        | .error (.missing _) => (none, tree)
        | .error f => (some f, tree)
      | failed => failed
    | .error f => (some f, tree)

/-- Adds a directory and the directories above it where they are missing. -/
def makeDirectory (tree : FileTree) (path : Path) : Option PathFault × FileTree :=
  tree.addDirectories path.root path.names.reverse

/-- The tree with a file, in a directory that is there. -/
def write (tree : FileTree) (path : Path) (bytes : List UInt8) : Except PathFault FileTree :=
  match tree.place path with
  | .ok (.free names) => .ok { tree with files := (names, bytes) :: tree.files }
  | .ok (.taken (.file names _)) =>
    .ok { tree with files := (names, bytes) :: tree.files.filter (·.1 ≠ names) }
  | .ok (.taken _) => .error (.isDirectory path)
  | .error f => .error f

/-- The tree with a file, and the directories above it. -/
def add (tree : FileTree) (path : Path) (bytes : List UInt8) : Except PathFault FileTree :=
  match tree.makeDirectory path.parent with
  | (some f, _) => .error f
  | (none, tree) => tree.write path bytes

end FileTree

end GoLayout
