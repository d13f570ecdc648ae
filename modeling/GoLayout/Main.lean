import GoLayout.Command.Help
import GoLayout.Command.Run
import Std.Time.Format

/-! # The program

    The outer layer of the command line: it reads files and variables, tells the time and
    writes what the journal of a run holds. -/

namespace GoLayout.Main

open Command

/-- A clock that only goes forward, in seconds. -/
def seconds : IO Float := do
  return (← IO.monoNanosNow).toFloat / 1000000000.0

/-- The date and time here; the world time where the local one is unknown. -/
def dateTime : IO Std.Time.PlainDateTime := do
  try Std.Time.PlainDateTime.now
  catch _ =>
    return .ofWallTime (.ofTimestamp (← Std.Time.Timestamp.now) Std.Time.TimeZone.UTC.offset)

/-- The date and time in a given format. -/
def formatted (format : String) : IO Text := return ((← dateTime).format format).toList

/-- The megabytes in use, where the system tells them; pages have four kilobytes. -/
def memory : IO Float := do
  try
    match (← IO.FS.readFile "/proc/self/statm").splitOn " " with
    | _ :: pages :: _ => return (pages.toNat?.getD 0).toFloat / 256.0
    | _ => return 0.0
  catch _ => return 0.0

/-- Why a path cannot be used. -/
def faultOf (path : Path) : IO.Error → PathFault
  | .noFileOrDirectory _ _ _ => .missing path
  | .inappropriateType _ code reason
  | .permissionDenied _ code reason
  | .alreadyExists _ code reason
  | .resourceExhausted _ code reason
  | .invalidArgument _ code reason
  | .otherError code reason => faultOfCode code reason
  | e => .other path 5 e.toString.toList
where
  /-- The fault with a given number. -/
  faultOfCode (code : UInt32) (reason : String) : PathFault :=
    if code = 17 then .occupied path
    else if code = 20 then .notDirectory path
    else if code = 21 then .isDirectory path
    else if code = 36 then .nameTooLong path
    else .other path code.toNat reason.toList

/-- The text of the file at a path. -/
def readText (path : Path) : IO (Except ReadFault Text) := do
  try
    let bytes ← IO.FS.readBinFile path.toText.toStr
    return textOfBytes bytes.toList
  catch e => return .error (.path (faultOf path e))

/-- The text of the environment file, empty where there is no file. -/
def readEnvFile : IO (Except ReadFault Text) := do
  match ← readText EnvFile.defaultPath with
  | .error (.path _) => return .ok []
  | content => return content

/-- The variables of the process that matter for a run. -/
def environment (envFile : Except ReadFault Text) : IO Environment := do
  let names := EnvFile.offVariable :: Settings.variableNames ++
    match envFile with
    | .ok t => EnvFile.names t
    | .error _ => []
  let values ← names.eraseDups.mapM fun name => do
    return (← IO.getEnv name.toStr).map fun value => (name, value.toList)
  return ⟨values.filterMap id⟩

/-- A log file that is open, if there is one. -/
abbrev LogFile := Option IO.FS.Handle

/-- Writes what a journal holds. -/
def write (log : LogFile) (j : Journal) : IO Journal := do
  for w in j.output do
    match w, log with
    | .console t, _ => IO.eprintln t.toStr
    | .file _ r, some handle =>
      handle.putStrLn (r.fileLine (← formatted "uuuu-MM-dd HH:mm:ss")).toStr
    | .file _ _, none => pure ()
  return j.flushed

/-- Writes what the journal of a run holds, and tells it the time. -/
def proceed (log : LogFile) (r : Run) : IO Run := do
  let j ← write log r.journal
  let now ← seconds
  return r.journaled fun _ => j.atTime now

/-- Works on a file. -/
def workOn (log : LogFile) (r : Run) (path : Path) : IO Run := do
  if r.fatal.isSome then return r
  let r ← proceed log (r.beginFile path)
  let began := r.journal.now
  let content ← readText path
  let outcome ← IO.lazyPure fun _ => FileOutcome.ofContent r.word r.config.allNames content
  let r ← proceed log r
  return r.endFile path began outcome

/-- Writes what is left of a run and gives its exit status. -/
def conclude (log : LogFile) (o : Outcome) : IO UInt32 := do
  IO.print o.output.toStr
  discard (write log o.journal)
  return UInt32.ofNat o.status

/-- Opens the log file of a run in its directory. -/
def openLog (directory : Path) : IO (Path × IO.FS.Handle) := do
  IO.FS.createDirAll directory.toText.toStr
  let file := directory.child (Log.Setup.fileName (← formatted "uuuuMMdd_HHmmss"))
  return (file, ← IO.FS.Handle.mk file.toText.toStr .append)

/-- Works on all files of a run. -/
def workOnAll (r : Run) (file : Option Path) (log : LogFile) : IO UInt32 := do
  let mut r := r.start file
  for path in r.options.files do
    r ← workOn log r path
  r ← proceed log r
  conclude log (r.finish (← memory))

/-- Opens the log file, if there is to be one, and works on all files. -/
def begin (r : Run) : IO UInt32 := do
  match r.config.logDirectory with
  | none => workOnAll r none none
  | some directory =>
    match ← (openLog directory).toBaseIO with
    | .ok (file, handle) => workOnAll r (some file) (some handle)
    | .error e =>
      IO.eprintln (faultOf directory e).message.toStr
      return 1

/-- A run from its command line to its exit status. -/
def run (words : List Text) : IO UInt32 := do
  let envFile ← readEnvFile
  match Start.ofCommandLine words (← environment envFile) envFile (← seconds) with
  | .help =>
    IO.println helpText.toStr
    return 0
  | .refused o => conclude none o
  | .broken b =>
    IO.eprintln b.message.toStr
    return 1
  | .ready r => begin r

end GoLayout.Main

/-- The program. -/
def main (args : List String) : IO UInt32 := GoLayout.Main.run (args.map String.toList)
