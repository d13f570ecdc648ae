import GoLayout.Declaration
import GoLayout.FieldLine.Column
import GoLayout.FieldLine.Shape
import GoLayout.Source.CodeLine
import GoLayout.Source.Segment
import GoLayout.Text.Decimal

/-! # Field runs

    The text of one field may be spread over several lines while a round or square bracket is
    open. A run is the segments that belong together; its fields are placed on the line where
    it starts. -/

namespace GoLayout

/-- The segments of one field, and the line and column where the first of them starts. -/
structure FieldRun where
  line : Nat
  raw : Text
  column : Nat
  parts : List Text
  deriving Repr, DecidableEq

namespace FieldRun

/-- The segments of a field that are not blank, without outer blanks and with one blank between
    them. -/
def joined (r : FieldRun) : Text :=
  Text.joinWith [' '] ((r.parts.map Text.trim).filter (!·.isEmpty))

/-- The text of a field: a single segment as it stands, several ones joined. -/
def text (r : FieldRun) : Text :=
  match r.parts with
  | [part] => part
  | _ => r.joined

/-- The run as it is read where no line is left that could go on with it: its segments are
    joined, a single one too. -/
def flush (r : FieldRun) : FieldRun := { r with parts := [r.joined] }

/-- The run of a segment of a line. -/
def ofSegment (l : CodeLine) (s : Segment) : FieldRun :=
  ⟨l.number, l.raw, l.column + s.start, [s.text]⟩

/-- Fields of one type in the order of their names, each name placed behind the one before. -/
def placeNames (r : FieldRun) (type : Text) (column : Nat) : List Text → List Field
  | [] => []
  | name :: names =>
    let start := Column.locate r.raw name column
    ⟨name, type, ⟨r.line, start, start + name.length⟩⟩ ::
      placeNames r type (start + name.length) names

/-- The fields of a run; of a list of names only the first, unless all are asked for. -/
def fields (allNames : Bool) (r : FieldRun) : List Field :=
  match FieldLine.classify r.text with
  | some l => r.placeNames l.type r.column (if allNames then l.names else l.names.take 1)
  | none => []

/-- What is reported of a run that declares nothing. -/
def records (r : FieldRun) : List Log.Record :=
  if Text.isBlankText r.text || (FieldLine.classify r.text).isSome then []
  else
    FieldLine.records r.text ++
      [.debug .parsing ["Skipping line ", Decimal.ofNat (r.line + 1), ": ",
        (Text.trim r.text).quoted]]

end FieldRun

/-- The runs of a body read so far that can still grow: the depth of open brackets and the
    run that is open with them. -/
structure OpenRun where
  brackets : Int
  pending : Option FieldRun
  deriving Repr, DecidableEq

namespace OpenRun

/-- No bracket is open. -/
def start : OpenRun := ⟨0, none⟩

/-- Puts the segments of the open run in front of the first run of the next line. -/
def extend (s : OpenRun) : List FieldRun → List FieldRun
  | [] => s.pending.toList
  | first :: more =>
    match s.pending with
    | some run => { run with parts := run.parts ++ first.parts } :: more
    | none => first :: more

/-- The runs that a line completes, and the one that it leaves open. -/
def feed (s : OpenRun) (l : CodeLine) : List FieldRun × OpenRun :=
  let cut := Segment.split l.code s.brackets
  let runs := s.extend (cut.1.map (FieldRun.ofSegment l))
  if cut.2 > 0 then (runs.dropLast, ⟨cut.2, runs.getLast?⟩) else (runs, ⟨cut.2, none⟩)

/-- The runs that some lines complete, and the one that they leave open. -/
def feedAll (s : OpenRun) : List CodeLine → List FieldRun × OpenRun
  | [] => ([], s)
  | l :: ls =>
    let first := s.feed l
    let more := first.2.feedAll ls
    (first.1 ++ more.1, more.2)

/-- The run that is still open at the end of all lines, as it is read there. -/
def finish (s : OpenRun) : Option FieldRun := s.pending.map FieldRun.flush

end OpenRun

end GoLayout
