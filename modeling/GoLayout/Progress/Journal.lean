import GoLayout.Elapsed
import GoLayout.Log.Setup
import GoLayout.Progress.Counters

/-! # Journals

    A journal accompanies the work: it counts, knows which operations are open, takes the
    time, and reports. What it writes is kept in order until the outer layer takes it. -/

namespace GoLayout

/-- Something that was written: a text on the console, or a record in a log file. -/
inductive Written where
  | console (text : Text)
  | file (path : Path) (record : Log.Record)
  deriving Repr, DecidableEq

/-- The state of a journal: where records go and which part of the program speaks, when
    counting began and the time now, the counters, the open operations with the outermost
    first, and what was written, newest first. -/
structure Journal where
  setup : Log.Setup
  source : Log.Source
  started : Float
  now : Float
  counters : Counters
  operations : List Text
  written : List Written
  deriving Repr

namespace Journal

/-- A journal that begins at a given time. -/
def start (setup : Log.Setup) (source : Log.Source) (now : Float) : Journal :=
  ⟨setup, source, now, now, .zero, [], []⟩

/-- What was written, oldest first. -/
def output (j : Journal) : List Written := j.written.reverse

/-- What was written to the console. -/
def consoleOutput (j : Journal) : List Text :=
  j.output.filterMap fun
    | .console t => some t
    | .file _ _ => none

/-- Forgets what was written. -/
def flushed (j : Journal) : Journal := { j with written := [] }

/-- The journal at a later time. -/
def atTime (j : Journal) (now : Float) : Journal := { j with now }

/-- What a record writes. -/
def writes (setup : Log.Setup) (r : Log.Record) : List Written :=
  ((setup.shown? r).map Written.console).toList ++
    ((setup.fileFor? r).map (Written.file · r)).toList

/-- Reports a record. -/
def report (j : Journal) (r : Log.Record) : Journal :=
  { j with written := (writes j.setup r).reverse ++ j.written }

/-- Reports records in order. -/
def reportAll (j : Journal) (rs : List Log.Record) : Journal := rs.foldl report j

/-- Reports a message of the program part that the journal belongs to. -/
def say (j : Journal) (level : Log.Level) (parts : List Text) : Journal :=
  j.report ⟨j.source, level, Text.concat parts⟩

/-- Sets up where records go. -/
def install (j : Journal) (verbose : Bool) (file : Option Path) : Journal :=
  let (setup, records) := j.setup.install verbose file
  { j with setup }.reportAll records

/-- The text of the time since a given one. -/
def since (j : Journal) (time : Float) : Text := Elapsed.text (j.now - time)

/-! ## Calls -/

/-- Reports that a call begins. -/
def beginCall (j : Journal) (source : Log.Source) (name : Text) : Journal :=
  j.report (.debug source ["Starting ", name])

/-- Reports that a call which began at a given time is done. -/
def endCall (j : Journal) (source : Log.Source) (name : Text) (began : Float) : Journal :=
  j.report (.debug source ["Completed ", name, " in ", j.since began])

/-- Reports that a call which began at a given time failed. -/
def failCall (j : Journal) (source : Log.Source) (name : Text) (began : Float) (error : Text) :
    Journal :=
  j.report
    ⟨source, .error, Text.concat ["Failed ", name, " after ", j.since began, ": ", error]⟩

/-! ## Operations -/

/-- Opens an operation. -/
def beginOperation (j : Journal) (name : Text) : Journal :=
  { j with operations := j.operations ++ [name] }.say .debug ["Starting operation: ", name]

/-- Closes the innermost operation. -/
def closeOperation (j : Journal) : Journal := { j with operations := j.operations.dropLast }

/-- Reports that an operation which began at a given time is done. -/
def reportOperation (j : Journal) (name : Text) (began : Float) : Journal :=
  j.say .debug ["Completed operation: ", name, " in ", j.since began]

/-- Reports that an operation which began at a given time failed. -/
def reportFailedOperation (j : Journal) (name : Text) (began : Float) (error : Text) : Journal :=
  j.say .error ["Failed operation: ", name, " after ", j.since began, ": ", error]

/-! ## Documents -/

/-- What is remembered while a document is worked on: when that began, and the number of
    declarations before it. -/
structure Mark where
  began : Float
  declarations : Int
  deriving Repr

/-- The mark of a document that begins now. -/
def mark (j : Journal) : Mark := ⟨j.now, j.counters.declarations⟩

/-- Counts a document and reports that the work on it begins. -/
def beginDocument (j : Journal) (name : Text) : Journal :=
  { j with counters := j.counters.countDocument }.say .debug
    ["Processing document #", Decimal.ofInt (j.counters.documents + 1), ": ", name]

/-- Reports that the work on a document is done. -/
def endDocument (j : Journal) (m : Mark) : Journal :=
  j.say .debug ["Document #", Decimal.ofInt j.counters.documents, " completed in ",
    j.since m.began, " (", Decimal.ofInt (j.counters.declarations - m.declarations),
    " structs analyzed)"]

/-- Reports that the work on a document failed. -/
def failDocument (j : Journal) (m : Mark) (error : Text) : Journal :=
  j.say .error ["Document #", Decimal.ofInt j.counters.documents, " failed after ",
    j.since m.began, ": ", error]

/-! ## Counting -/

/-- Counts a declaration. -/
def countDeclaration (j : Journal) (fields : Int) : Journal :=
  { j with counters := j.counters.countDeclaration fields }

/-- Counts the declarations of some analyses. -/
def countAnalyses (j : Journal) (analyses : List Analysis) : Journal :=
  { j with counters := j.counters.countAnalyses analyses }

/-- Reports what was counted. -/
def summarize (j : Journal) : Journal :=
  j.say .info ["Analysis complete: ", Decimal.ofInt j.counters.documents, " documents, ",
    Decimal.ofInt j.counters.declarations, " structs, ", Decimal.ofInt j.counters.fields,
    " fields in ", j.since j.started]

/-- Reports the memory in use, in megabytes. -/
def reportMemory (j : Journal) (megabytes : Float) : Journal :=
  j.say .debug ["Memory usage: ", (Binary.ofBits megabytes.toBits).fixed 1, " MB"]

/-- Counts from nothing again, with no operation open. -/
def reset (j : Journal) : Journal :=
  { j with started := j.now, counters := .zero, operations := [] }

end Journal

end GoLayout
