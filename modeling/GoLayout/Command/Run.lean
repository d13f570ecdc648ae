import GoLayout.Command.Selection
import GoLayout.EnvFile.Basic
import GoLayout.Progress.Journal

/-! # Runs

    A run reads its options and its configuration, analyses file after file, and reports. A
    file that cannot be read is noted and left out; a struct whose size has too many digits
    ends the run. The outer layer reads files, tells the time and writes; what it is to write
    stands in the journal. -/

namespace GoLayout.Command

/-- A file was read and analysed, as far as possible. -/
abbrev FileOutcome := Except ReadFault Progressed

/-- What comes out of a file with a given content. -/
def FileOutcome.ofContent (word : WordSize) (allNames : Bool) (content : Except ReadFault Text) :
    FileOutcome :=
  content.map (Progressed.ofSource word allNames)

/-- The state of a run: what it is asked to do, when the work began, the number of files begun
    so far, what is reported, which files failed and why, and what ended the run, if anything
    did. -/
structure Run where
  options : Options
  config : Config
  word : WordSize
  journal : Journal
  began : Float
  index : Nat
  reports : List FileReport
  failures : List (Path × Text)
  fatal : Option Text
  deriving Repr

/-- What is left when a run is over: the exit status, the text on the standard output, and the
    journal. -/
structure Outcome where
  status : Nat
  output : Text
  journal : Journal
  deriving Repr

/-- Why a run ends without an exit status: the log directory cannot be made, or an option
    stands emptied that the work needs. -/
inductive Breakdown where
  | logDirectory (fault : PathFault)
  | emptied (s : Switch)
  deriving Repr, DecidableEq

namespace Breakdown

/-- The wording of an emptied option. -/
def emptiedMessage : Switch → Text
  | .cursor => "find_struct_at() missing 2 required positional arguments: 'line' and 'column'"
  | .logDirectory => "'list' object has no attribute 'mkdir'"
  | _ => "unhashable type: 'list'"

/-- The wording of a run that ends without an exit status. -/
def message : Breakdown → Text
  | logDirectory f => f.message
  | emptied s => emptiedMessage s

end Breakdown

/-- How a run starts: not at all, or with options and a configuration. -/
inductive Start where
  | help
  | refused (outcome : Outcome)
  | broken (b : Breakdown)
  | ready (run : Run)
  deriving Repr

namespace Start

/-- The name of the program in messages. -/
def programName : Text := "go-struct-analyzer"

/-- The end of a run that does not begin, with a line on the console. -/
def refuse (journal : Journal) (status : Nat) (line : Text) : Start :=
  .refused ⟨status, [], { journal with written := .console line :: journal.written }⟩

/-- Starts a run from its options and the environment it has. An emptied architecture or word
    size cannot be looked up, but an unknown architecture is refused before the word size
    matters; an emptied log directory matters only for a valid configuration. -/
def ofOptions (journal : Journal) (options : Options) (env : Environment) : Start :=
  let config := Config.ofEnvironment env options.overrides
  let refused (e : TargetError) : Start :=
    refuse journal 1 (Text.concat ["Configuration error: ", e.message])
  if options.isEmptied .architecture then .broken (.emptied .architecture)
  else if options.isEmptied .wordSize then
    match Architecture.wordSize? config.architecture with
    | none => refused (.unknownArchitecture config.architecture)
    | some _ => .broken (.emptied .wordSize)
  else
    match config.check with
    | .error e => refused e
    | .ok word =>
      if options.isEmptied .logDirectory then .broken (.emptied .logDirectory)
      else .ready ⟨options, config, word, journal, journal.now, 0, [], [], none⟩

/-- Starts a run from a command line, an environment and the content of an environment
    file. -/
def ofCommandLine (words : List Text) (env : Environment) (envFile : Except ReadFault Text)
    (now : Float) : Start :=
  let journal := Journal.start .fresh .command now
  match Options.read words with
  | .error .help => .help
  | .error (.misuse m) =>
    refuse journal 2 (Text.concat [programName, ": error: ", m.message])
  | .ok options =>
    let (records, loaded) := EnvFile.load env envFile
    let journal := journal.reportAll records
    match loaded with
    | .error f => refuse journal 1 (Text.concat ["Configuration error: ", f.message])
    | .ok env => ofOptions journal options env

end Start

/-- The word for a switch in messages. -/
def switchWord (b : Bool) : Text := if b then "True" else "False"

namespace Run

/-- The name of the operation that all files belong to. -/
def operation : Text := "analyze files"

/-- The name of the call that analyses a file. -/
def fileCall : Text := "StructAnalyzer.analyze_file"

/-- Changes the journal. -/
def journaled (r : Run) (f : Journal → Journal) : Run := { r with journal := f r.journal }

/-- Sets up where records go and begins the work. -/
def start (r : Run) (logFile : Option Path) : Run :=
  let j := r.journal.install r.config.verbose logFile
  let j := j.say .debug ["Architecture: ", r.config.architecture, " (word size ",
    Decimal.ofInt r.config.wordSize, ")"]
  let j := j.say .debug ["Multi-name field expansion: ", switchWord r.config.allNames]
  { r with journal := j.beginOperation operation, began := r.journal.now }

/-- Begins a file. -/
def beginFile (r : Run) (path : Path) : Run :=
  let number := r.index + 1
  let j := r.journal.say .debug ["[", Decimal.ofNat number, "/",
    Decimal.ofNat r.options.files.length, "] Analyzing: ", path.toText]
  { r with journal := j.beginCall .analysis fileCall, index := number }

/-- Notes that a file failed. -/
def fail (r : Run) (path : Path) (error : Text) : Run :=
  { r with
    journal := r.journal.say .error ["[FAILED] ", path.toText, ": ", error]
    failures := r.failures ++ [(path, error)] }

/-- Notes what ends the run. -/
def abort (r : Run) (error : Text) : Run := { r with fatal := some error }

/-- Reports the structs of a file that are asked for. An emptied cursor leads to none. -/
def select (r : Run) (path : Path) (analyses : List Analysis) : Run :=
  let selected := r.options.select r.config.warnings analyses
  let report : FileReport := ⟨path, selected⟩
  let next := { r with reports := r.reports ++ [report] }
  if r.options.isEmptied .cursor then r.abort (Breakdown.emptied .cursor).message
  else
    match r.options.cursor with
    | some c =>
      if selected.isEmpty then
        next.journaled (·.say .info ["No struct found at ", c.toText, " in ", path.toText])
      else next
    | none => next

/-- Ends a file that began at a given time. -/
def endFile (r : Run) (path : Path) (began : Float) (outcome : FileOutcome) : Run :=
  match outcome with
  | .error f =>
    let r := r.journaled (·.failCall .analysis fileCall began f.message)
    if f.isFileFault then r.fail path f.message else r.abort f.message
  | .ok p =>
    let mark := { r.journal.mark with began }
    let j := (r.journal.beginDocument path.toText).reportAll p.records
    let j := j.countAnalyses p.analyses
    match p.result with
    | .error e =>
      let j := (j.failDocument mark e.message).failCall .analysis fileCall began e.message
      { r with journal := j }.abort e.message
    | .ok analyses =>
      let j := (j.endDocument mark).endCall .analysis fileCall began
      { r with journal := j }.select path analyses

/-- Works on a file that takes no time, unless the run was ended before. -/
def file (r : Run) (path : Path) (outcome : FileOutcome) : Run :=
  if r.fatal.isSome then r
  else (r.beginFile path).endFile path r.journal.now outcome

/-- Ends the operation that all files belong to. -/
def endOperation (r : Run) : Run :=
  r.journaled fun j =>
    (match r.fatal with
      | some e =>
        (j.reportFailedOperation operation r.began e).say .error
          ["Fatal error during analysis: ", e]
      | none => j.reportOperation operation r.began).closeOperation

/-- The text on the standard output. -/
def output (r : Run) : Text :=
  if r.options.json then jsonReport r.config r.reports ++ ['\n']
  else if r.reports.isEmpty then []
  else textReport r.config r.options.cursor r.reports ++ ['\n']

/-- Reports which files failed. -/
def reportFailures (r : Run) (j : Journal) : Journal :=
  if r.failures.isEmpty then j
  else
    r.failures.foldl
      (fun j (path, error) => j.say .info ["  - ", path.toText, ": ", error])
      (j.say .info ["Failed files:"])

/-- The structs that are reported. -/
def reported (r : Run) : List Analysis := r.reports.flatMap (·.analyses)

/-- The exit status: one if a file failed, two if that is asked for and a reported struct would
    shrink, and zero otherwise. -/
def status (r : Run) : Nat :=
  if !r.failures.isEmpty then 1
  else if r.options.failOnOptimizable &&
      !(Analysis.optimizable r.config.warnings r.reported).isEmpty then 2
  else 0

/-- Ends a run. -/
def finish (r : Run) (megabytes : Float) : Outcome :=
  let r := r.endOperation
  match r.fatal with
  | some _ => ⟨1, [], r.journal⟩
  | none =>
    let j := if r.config.verbose then r.journal.reportMemory megabytes else r.journal
    ⟨r.status, r.output, r.reportFailures j.summarize⟩

/-- Works on files that take no time. -/
def files (r : Run) (outcomes : List (Path × FileOutcome)) : Run :=
  outcomes.foldl (fun r (path, outcome) => r.file path outcome) r

end Run

/-- A whole run over a file tree, from a command line and an environment, and the tree behind
    it. The log directory is there when the first file is read. -/
def run (tree : FileTree) (env : Environment) (words : List Text) (stamp : Text) :
    Except Breakdown (Outcome × FileTree) :=
  match Start.ofCommandLine words env (EnvFile.text tree EnvFile.defaultPath) 0.0 with
  | .help => .ok (⟨0, [], Journal.start .fresh .command 0.0⟩, tree)
  | .refused outcome => .ok (outcome, tree)
  | .broken b => .error b
  | .ready r =>
    let analyzed (tree : FileTree) (logFile : Option Path) : Outcome × FileTree :=
      (((r.start logFile).files (r.options.files.map fun path =>
        (path, .ofContent r.word r.config.allNames (tree.read path)))).finish 0.0, tree)
    match r.config.logDirectory with
    | none => .ok (analyzed tree none)
    | some directory =>
      match tree.makeDirectory directory with
      | (some f, _) => .error (.logDirectory f)
      | (none, tree) =>
        .ok (analyzed tree (some (directory.child (Log.Setup.fileName stamp))))

end GoLayout.Command
