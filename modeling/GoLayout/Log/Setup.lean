import GoLayout.File.Path
import GoLayout.Log.Record

/-! # Log setup

    Where records go. The console takes records from a level on, a log file takes all of
    them. Before anything is set up, the bare message of a warning or something worse is
    still shown. `install_of_installed` says that a second installation changes
    nothing. -/

namespace GoLayout.Log

/-- Where records go: whether they were installed, the least level that is
    reported at all, the least level that the console shows, and the log file. -/
structure Setup where
  installed : Bool
  threshold : Level
  console : Option Level
  file : Option Path
  deriving Repr, DecidableEq

namespace Setup

/-- Nothing is set up. -/
def fresh : Setup := ⟨false, .warning, none, none⟩

/-- The level from which on the console shows records. -/
def consoleLevel (verbose : Bool) : Level := if verbose then .debug else .info

/-- Every record is reported, and the console is set up; nothing else is. -/
def withConsole (s : Setup) (verbose : Bool) : Setup :=
  { s with threshold := .debug, console := some (consoleLevel verbose), file := none }

/-- The name of a log file that is opened at a given time. -/
def fileName (stamp : Text) : Text := Text.concat ["go_struct_analyzer_", stamp, ".log"]

/-- What is reported once everything is set up. -/
def records (file : Option Path) (verbose : Bool) : List Record :=
  (match file with
    | some p => [.debug .logSetup ["Logging initialized. Log file: ", p.toText]]
    | none => []) ++
    [.debug .logSetup ["Verbose mode: ", if verbose then "True" else "False"]]

/-- Sets up the console and the log file, if there is one, unless that was done before. -/
def install (s : Setup) (verbose : Bool) (file : Option Path) : Setup × List Record :=
  if s.installed then (s, [])
  else
    ({ s.withConsole verbose with installed := true, file }, records file verbose)

theorem install_of_installed {s : Setup} (h : s.installed = true) (verbose : Bool)
    (file : Option Path) : s.install verbose file = (s, []) := by
  simp [install, h]

/-- Takes the console and the log file away; the least reported level stays. -/
def reset (s : Setup) : Setup :=
  { s with installed := false, console := none, file := none }

/-- Is a record reported at all? -/
def takes (s : Setup) (r : Record) : Bool := s.threshold.rank ≤ r.level.rank

/-- What a record writes to the console. -/
def shown? (s : Setup) (r : Record) : Option Text :=
  if !s.takes r then none
  else
    match s.console with
    | some level => if level.rank ≤ r.level.rank then some r.consoleLine else none
    | none => if Level.warning.rank ≤ r.level.rank then some r.message else none

/-- The log file that a record is written to. -/
def fileFor? (s : Setup) (r : Record) : Option Path := if s.takes r then s.file else none

end Setup

end GoLayout.Log
