import GoLayout.Text.Decimal

/-! # Targets

    A layout is computed for one pointer width, the word size; each known architecture has
    one. -/

namespace GoLayout

/-- The pointer width of a target: four or eight bytes. -/
inductive WordSize where
  | four
  | eight
  deriving Repr, DecidableEq

namespace WordSize

/-- The width in bytes. -/
def bytes : WordSize → Nat
  | four => 4
  | eight => 8

/-- The word size of a given number of bytes. -/
def ofInt? (n : Int) : Option WordSize :=
  if n = 4 then some four else if n = 8 then some eight else none

end WordSize

/-- Why no layout can be computed for a target. -/
inductive TargetError where
  | unknownArchitecture (name : Text)
  | unsupportedWordSize (bytes : Int)
  deriving Repr, DecidableEq

namespace Architecture

/-- The known architectures in the order of their names, with their word sizes. -/
def table : List (Text × WordSize) :=
  [("386", .four), ("amd64", .eight), ("arm", .four), ("arm64", .eight), ("loong64", .eight),
    ("mips", .four), ("mips64", .eight), ("mips64le", .eight), ("mipsle", .four),
    ("ppc64", .eight), ("ppc64le", .eight), ("riscv64", .eight), ("s390x", .eight),
    ("wasm", .eight)]

/-- The names of the known architectures. -/
def names : List Text := table.map (·.1)

/-- The word size of a known architecture. -/
def wordSize? (name : Text) : Option WordSize := table.lookup name

/-- The architecture that is meant when none is named. -/
def default : Text := "amd64"

end Architecture

namespace TargetError

/-- The wording of a refused target. -/
def message : TargetError → Text
  | unknownArchitecture name =>
    Text.concat ["Unknown architecture: ", name, " (known: ",
      Text.joinWith ", " Architecture.names, ")"]
  | unsupportedWordSize n =>
    Text.concat ["Unsupported word size: ", Decimal.ofInt n, " (expected 4 or 8)"]

end TargetError

/-- The word size of a given number of bytes, or the reason why there is none. -/
def WordSize.check (n : Int) : Except TargetError WordSize :=
  match WordSize.ofInt? n with
  | some w => .ok w
  | none => .error (.unsupportedWordSize n)

end GoLayout
