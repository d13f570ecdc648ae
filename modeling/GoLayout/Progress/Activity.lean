import GoLayout.File.Tree
import GoLayout.Progress.Journal

/-! # Activities

    Work that a journal accompanies, as a value: simple steps, and calls, operations and
    documents around further steps. A failure ends every activity around it, and each of them
    reports it. -/

namespace GoLayout

/-- A step of work whose calls return values of a given type. -/
inductive Activity (α : Type) where
  | install (directory : Option Path) (verbose : Bool)
  | uninstall
  | report (level : Log.Level) (text : Text)
  | showSetup
  | call (name : Text) (value : α) (failure : Option Text)
  | operation (name : Text) (steps : List (Activity α)) (failure : Option Text)
  | document (name : Text) (steps : List (Activity α)) (failure : Option Text)
  | count (fields : Int)
  | summarize
  | reportMemory (megabytes : Float)
  | reset
  | showProgress

namespace Activity

/-- Why an activity failed. -/
inductive Failure where
  | failed (text : Text)
  | noOpenOperation
  | path (fault : PathFault)
  | size (e : Decimal.TooManyDigits)
  deriving Repr, DecidableEq

/-- The wording of a failure. -/
def Failure.message : Failure → Text
  | failed t => t
  | noOpenOperation => "pop from empty list"
  | path f => f.message
  | size e => e.message

/-- What an activity gives back. -/
inductive Answer (α : Type) where
  | nothing
  | value (a : α)
  | setup (s : Log.Setup)
  | progress (counters : Counters) (operations : List Text)
  | list (answers : List (Answer α))

/-- Where activities take place: the journal, the files, and the time as names of log files
    show it. -/
structure Workplace where
  journal : Journal
  tree : FileTree
  stamp : Text

namespace Workplace

/-- Changes the journal. -/
def journaled (p : Workplace) (f : Journal → Journal) : Workplace :=
  { p with journal := f p.journal }

/-- Sets up where records go; the log file lies in a directory that is made if need be. -/
def install {α : Type} (p : Workplace) (directory : Option Path) (verbose : Bool) :
    Except Failure (Answer α) × Workplace :=
  if p.journal.setup.installed then (.ok .nothing, p)
  else
    match directory with
    | none => (.ok .nothing, p.journaled (·.install verbose none))
    | some d =>
      let (fault, tree) := p.tree.makeDirectory d
      let p := { p with tree }
      match fault with
      | none =>
        let file := d.child (Log.Setup.fileName p.stamp)
        (.ok .nothing, p.journaled (·.install verbose (some file)))
      | some f =>
        (.error (.path f), p.journaled fun j => { j with setup := j.setup.withConsole verbose })

/-- Closes an operation with a result; that fails if no operation is open any more. -/
def close {α : Type} (p : Workplace) (result : Except Failure α) :
    Except Failure α × Workplace :=
  if p.journal.operations.isEmpty then (.error .noOpenOperation, p)
  else (result, p.journaled Journal.closeOperation)

end Workplace

/-- The result of some steps, unless there is a failure behind them. -/
def behind {β : Type} (result : Except Failure β) (failure : Option Text) : Except Failure β :=
  match result, failure with
  | .ok _, some t => .error (.failed t)
  | r, _ => r

mutual

/-- What an activity gives back, and the state behind it. -/
def run {α : Type} (p : Workplace) : Activity α → Except Failure (Answer α) × Workplace
  | install directory verbose => p.install directory verbose
  | uninstall => (.ok .nothing, p.journaled fun j => { j with setup := j.setup.reset })
  | report level text => (.ok .nothing, p.journaled (·.say level [text]))
  | showSetup => (.ok (.setup p.journal.setup), p)
  | call name value failure =>
    let source := p.journal.source
    let began := p.journal.now
    let p := p.journaled (·.beginCall source name)
    match failure with
    | none => (.ok (.value value), p.journaled (·.endCall source name began))
    | some t => (.error (.failed t), p.journaled (·.failCall source name began t))
  | operation name steps failure =>
    let began := p.journal.now
    let (answers, p) := runAll (p.journaled (·.beginOperation name)) steps
    match behind answers failure with
    | .ok answers =>
      (p.journaled (·.reportOperation name began)).close (.ok (.list answers))
    | .error e =>
      (p.journaled (·.reportFailedOperation name began e.message)).close (.error e)
  | document name steps failure =>
    let mark := p.journal.mark
    let (answers, p) := runAll (p.journaled (·.beginDocument name)) steps
    match behind answers failure with
    | .ok answers => (.ok (.list answers), p.journaled (·.endDocument mark))
    | .error e => (.error e, p.journaled (·.failDocument mark e.message))
  | count fields => (.ok .nothing, p.journaled (·.countDeclaration fields))
  | summarize =>
    if p.journal.counters.writable then (.ok .nothing, p.journaled Journal.summarize)
    else (.error (.size ⟨⟩), p)
  | reportMemory megabytes => (.ok .nothing, p.journaled (·.reportMemory megabytes))
  | reset => (.ok .nothing, p.journaled Journal.reset)
  | showProgress => (.ok (.progress p.journal.counters p.journal.operations), p)

/-- What activities give back one after the other, up to the first failure. -/
def runAll {α : Type} (p : Workplace) :
    List (Activity α) → Except Failure (List (Answer α)) × Workplace
  | [] => (.ok [], p)
  | step :: steps =>
    match run p step with
    | (.error e, p) => (.error e, p)
    | (.ok answer, p) =>
      match runAll p steps with
      | (.error e, p) => (.error e, p)
      | (.ok answers, p) => (.ok (answer :: answers), p)

end

end Activity

end GoLayout
