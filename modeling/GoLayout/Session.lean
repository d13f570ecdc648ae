import GoLayout.File.Tree
import GoLayout.Progress.Counters
import GoLayout.Settings.Config

/-! # Sessions

    Documents are opened one after the other, from memory or from a file, and the structs of
    the last one that was opened can be looked at. A document that cannot be opened changes
    nothing but the counters: a document counts once its file was read, and a declaration
    once its analysis was completed. -/

namespace GoLayout

/-- The state of a session. -/
structure Session where
  tree : FileTree
  word : WordSize
  allNames : Bool
  warnings : Bool
  counting : Bool
  counters : Counters
  analyses : List Analysis
  deriving Repr, DecidableEq

namespace Session

/-- Why a document cannot be opened. -/
inductive Fault where
  | file (fault : ReadFault)
  | size (fault : Decimal.TooManyDigits)
  deriving Repr, DecidableEq

/-- The wording of a document that cannot be opened. -/
def Fault.message : Fault → Text
  | file f => f.message
  | size f => f.message

/-- A session in an empty directory, for a configuration whose word size is supported. -/
def start (c : Config) (counting : Bool) : Except TargetError Session :=
  (WordSize.check c.wordSize).map fun word =>
    ⟨.empty, word, c.allNames, c.warnings, counting, .zero, []⟩

/-- Changes the counters, if they are kept. -/
def count (s : Session) (f : Counters → Counters) : Session :=
  if s.counting then { s with counters := f s.counters } else s

/-- Opens a document: its analyses or the reason why there are none, and the session. -/
def openText (s : Session) (source : Text) : Except Fault (List Analysis) × Session :=
  let p := Progressed.ofSource s.word s.allNames source
  let s := s.count (·.countAnalyses p.analyses)
  match p.result with
  | .ok analyses => (.ok analyses, { s with analyses })
  | .error e => (.error (.size e), s)

/-- Opens the file at a path. -/
def openFile (s : Session) (path : Path) : Except Fault (List Analysis) × Session :=
  match s.tree.read path with
  | .ok source => (s.count Counters.countDocument).openText source
  | .error f => (.error (.file f), s)

/-- Starts counting from zero. -/
def resetCounters (s : Session) : Session := { s with counters := .zero }

/-- The struct whose region holds a place. -/
def structAt? (s : Session) (line column : Int) : Option Analysis :=
  Analysis.structAt? s.analyses line column

/-- The struct with a name. -/
def named? (s : Session) (name : Text) : Option Analysis := Analysis.named? s.analyses name

/-- The struct and the field at a place, and where the field lies in memory. -/
def fieldAt? (s : Session) (line column : Int) : Option (Analysis × Field × Placement) := do
  let a ← s.structAt? line column
  let (field, placement) ← a.placedFieldAt? line column
  return (a, field, placement)

/-- Where the field with a name lies in the struct with a name. -/
def placement? (s : Session) (struct field : Text) : Option Placement := do
  (← s.named? struct).layout.field? field

/-- The structs that would shrink. -/
def optimizable (s : Session) : List Analysis := Analysis.optimizable s.warnings s.analyses

end Session

end GoLayout
