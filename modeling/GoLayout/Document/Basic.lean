import GoLayout.Document.Body
import GoLayout.Document.FieldRun

/-! # Documents

    A document is read from its first line to its last. Every line with a header starts a
    struct, and reading goes on below its body, so that nothing inside a body counts as a
    declaration of its own. A header without any brace behind it declares nothing. -/

namespace GoLayout

/-- A struct that was found: where its header is, and its body. -/
structure StructSource where
  headerLine : Nat
  name : Text
  nameColumn : Nat
  body : Body
  deriving Repr, DecidableEq

namespace StructSource

/-- The runs of the body that were completed, and the one that was still open at its end. -/
def runs (s : StructSource) : List FieldRun × Option FieldRun :=
  let r := OpenRun.start.feedAll s.body.parts
  (r.1, r.2.pending)

/-- The run that was still open at the end of the body, as it is read there. -/
def lastRun? (s : StructSource) : Option FieldRun := (OpenRun.start.feedAll s.body.parts).2.finish

/-- The fields of the struct. -/
def fields (allNames : Bool) (s : StructSource) : List Field :=
  (s.runs.1 ++ s.lastRun?.toList).flatMap (FieldRun.fields allNames)

/-- The region from the header line to the end of the last line of the body. -/
def span (s : StructSource) : Span :=
  ⟨s.headerLine, 0, s.body.last.number, s.body.last.raw.length⟩

/-- The declaration of the struct. -/
def declaration (allNames : Bool) (s : StructSource) : Declaration where
  name := s.name
  fields := s.fields allNames
  span := s.span
  nameLocation := ⟨s.headerLine, s.nameColumn, s.nameColumn + s.name.length⟩
  terminated := s.body.ending = .closed

/-- What is reported of a body without a closing brace. -/
def endingRecords (s : StructSource) : List Log.Record :=
  match s.body.ending with
  | .closed => []
  | .endOfInput =>
    [.debug .parsing ["Struct ", s.name, " is not terminated; clamping to end of input"]]
  | .beforeHeader =>
    [.debug .parsing ["Struct ", s.name,
      " is not terminated; stopping before the declaration on line ",
      Decimal.ofNat (s.body.last.number + 2)]]

/-- What is reported while the struct is read. -/
def records (allNames : Bool) (s : StructSource) : List Log.Record :=
  s.runs.1.flatMap FieldRun.records ++ s.endingRecords ++
    s.lastRun?.toList.flatMap FieldRun.records ++
    [.debug .parsing ["Found struct ", s.name, " at lines ", Decimal.ofNat (s.headerLine + 1), "-",
      Decimal.ofNat (s.body.last.number + 1), " with ",
      Decimal.ofNat (s.fields allNames).length, " fields"]]

end StructSource

/-- What a header turned out to be. -/
inductive Finding where
  | struct (source : StructSource)
  | noBrace (name : Text)
  deriving Repr, DecidableEq

namespace Finding

/-- The declaration, if there is one. -/
def declaration? (allNames : Bool) : Finding → Option Declaration
  | struct s => some (s.declaration allNames)
  | noBrace _ => none

/-- What is reported of a header and what follows it. -/
def records (allNames : Bool) : Finding → List Log.Record
  | struct s => s.records allNames
  | noBrace name =>
    [.debug .parsing ["Discarding struct ", name, ": no opening brace before end of input"]]

end Finding

/-- Where reading stands between two lines outside of bodies: the number of the next line,
    whether a block comment is open, and the depth of parentheses of a type group. -/
structure ReadState where
  number : Nat
  inBlock : Bool
  group : Int
  deriving Repr, DecidableEq

namespace ReadState

/-- The start of a document. -/
def start : ReadState := ⟨0, false, 0⟩

/-- The state behind a line without a header. -/
def skip (s : ReadState) (l : CodeLine) : ReadState where
  number := s.number + 1
  inBlock := l.inBlock
  group :=
    if s.group > 0 then Bracket.scanParens l.code s.group
    else if Header.opensGroup l.code then 1
    else s.group

/-- The state behind the last line of a body. -/
def behind (s : ReadState) (b : Body) : ReadState :=
  { s with number := b.last.number + 1, inBlock := b.last.inBlock }

/-- The state below a header without a brace. -/
def discard (s : ReadState) : ReadState := { s with number := s.number + 1, inBlock := false }

end ReadState

namespace Document

/-- What some lines declare, and the state at their end. -/
def scan (s : ReadState) : List Text → List Finding × ReadState
  | [] => ([], s)
  | raw :: below =>
    let l := CodeLine.ofRaw s.number raw s.inBlock
    match Header.find? (s.group = 1) l.code with
    | none => scan (s.skip l) below
    | some h =>
      match _h : Body.opening? (h.rest l) below with
      | none =>
        let r := scan s.discard below
        (.noBrace h.name :: r.1, r.2)
      | some (first, rest) =>
        let body := Body.read first rest
        let r := scan (s.behind body) body.below
        (.struct ⟨s.number, h.name, h.nameColumn l.code, body⟩ :: r.1, r.2)
termination_by lines => lines.length
decreasing_by
  · simp
  · simp
  · have h1 := Body.opening?_length _h
    have h2 := Body.readFrom_below_length 1 first rest
    simp only [Body.read, List.length_cons]
    omega

/-- What the headers of a document turned out to be. -/
def findings (source : Text) : List Finding := (scan .start (sourceLines source)).1

/-- The struct declarations of a document in the order of their headers. -/
def declarations (allNames : Bool) (source : Text) : List Declaration :=
  (findings source).filterMap (Finding.declaration? allNames)

/-- What is reported while a document is read. -/
def records (allNames : Bool) (source : Text) : List Log.Record :=
  (findings source).flatMap (Finding.records allNames) ++
    [.debug .parsing ["Parsed ", Decimal.ofNat (declarations allNames source).length,
      " struct declarations from ", Decimal.ofNat (sourceLines source).length, " lines"]]

end Document

end GoLayout
