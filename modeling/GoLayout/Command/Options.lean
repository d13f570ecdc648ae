import GoLayout.Command.Word
import GoLayout.File.Path
import GoLayout.Settings.Config

/-! # Options of a run

    What a command line asks for. Options are obeyed from left to right, and of two values
    for one option the later holds. Two dashes behind the equals sign are no value at all:
    they empty the option. The first arguments in a row that no option takes are the files;
    anything else that is left over is a misuse. -/

namespace GoLayout.Command

/-- What a run is asked to do, and which options stand emptied. -/
structure Options where
  files : List Path
  architecture : Option Text
  wordSize : Option Int
  structName : Option Text
  cursor : Option Cursor
  onlyOptimizable : Bool
  failOnOptimizable : Bool
  allNames : Bool
  json : Bool
  logDirectory : Option Path
  verbose : Bool
  emptied : List Switch
  deriving Repr, DecidableEq

namespace Options

/-- Nothing is asked for. -/
def empty : Options :=
  ⟨[], none, none, none, none, false, false, false, false, none, false, []⟩

/-- What is asked for explicitly about the configuration. A switch can only be set. -/
def overrides (o : Options) : Overrides where
  architecture := o.architecture
  wordSize := o.wordSize
  verbose := if o.verbose then some true else none
  logDirectory := o.logDirectory
  allNames := if o.allNames then some true else none

end Options

/-- Why no run begins: the help text was asked for, or the command line cannot be obeyed. -/
inductive NoRun where
  | help
  | misuse (m : Misuse)
  deriving Repr, DecidableEq

namespace Options

/-- The options with an architecture. -/
def setArchitecture (o : Options) (value : Text) : Except Misuse Options :=
  if Architecture.names.contains value then .ok { o with architecture := some value }
  else
    .error (.notAChoice .architecture value.quoted (Architecture.names.map Text.quoted))

/-- The options with a word size. -/
def setWordSize (o : Options) (value : Text) : Except Misuse Options :=
  match Decimal.readInt? value with
  | none => .error (.notAnInteger .wordSize value)
  | some n =>
    if (WordSize.ofInt? n).isSome then .ok { o with wordSize := some n }
    else .error (.notAChoice .wordSize (Decimal.ofInt n) [['4'], ['8']])

/-- The options with the name of a struct; no name asks for every struct. -/
def setStructName (o : Options) (value : Text) : Options :=
  if value.isEmpty then { o with structName := none } else { o with structName := some value }

/-- The options with a cursor. -/
def setCursor (o : Options) (value : Text) : Except Misuse Options :=
  match Cursor.read value with
  | .ok c => .ok { o with cursor := some c }
  | .error f => .error (.notACursor .cursor f)

/-- The options with a value for one of them. -/
def setGiven (o : Options) (s : Switch) (value : Text) : Except Misuse Options :=
  match s with
  | .architecture => o.setArchitecture value
  | .wordSize => o.setWordSize value
  | .structName => .ok (o.setStructName value)
  | .cursor => o.setCursor value
  | .logDirectory => .ok { o with logDirectory := some (Path.ofText value) }
  | _ => .error (.needlessValue s value)

/-- The options without a value for one of them. -/
def clear (o : Options) : Switch → Options
  | .architecture => { o with architecture := none }
  | .wordSize => { o with wordSize := none }
  | .structName => { o with structName := none }
  | .cursor => { o with cursor := none }
  | .logDirectory => { o with logDirectory := none }
  | _ => o

/-- Does an option stand emptied? -/
def isEmptied (o : Options) (s : Switch) : Bool := o.emptied.contains s

/-- The options with one of them emptied. -/
def withEmptied (o : Options) (s : Switch) : Options :=
  { o.clear s with emptied := s :: o.emptied }

/-- The options with the value of an option, which may have been attached to it. -/
def setValue (o : Options) (s : Switch) (value : Text) (attached : Bool) :
    Except Misuse Options :=
  if attached && value = Word.separatorText then .ok (o.withEmptied s)
  else
    (o.setGiven s value).map fun options =>
      { options with emptied := options.emptied.filter (· ≠ s) }

/-- The options with an option that takes no value. -/
def set (o : Options) : Switch → Except NoRun Options
  | .help => .error .help
  | .onlyOptimizable => .ok { o with onlyOptimizable := true }
  | .failOnOptimizable => .ok { o with failOnOptimizable := true }
  | .allNames => .ok { o with allNames := true }
  | .json => .ok { o with json := true }
  | .verbose => .ok { o with verbose := true }
  | s => .error (.misuse (.noValue s))

/-- The options with several of them, one after the other. -/
def setAll (o : Options) : List Switch → Except NoRun Options
  | [] => .ok o
  | s :: ss => do setAll (← o.set s) ss

end Options

/-- The switches that a letter and the letters attached to it stand for. -/
def lettersOf (s : Switch) : Text → Except Misuse (List Switch)
  | [] => .ok [s]
  | c :: cs =>
    match Switch.ofSpelling? ['-', c] with
    | some next => (lettersOf next cs).map (s :: ·)
    | none => .error (.needlessValue s (c :: cs))

/-- The switches that a spelling and what is attached to it stand for. Letters can be attached
    to a letter. -/
def switchesOf (s : Switch) (spelling : Text) : Option Text → Except Misuse (List Switch)
  | none => .ok [s]
  | some [] => .error (.needlessValue s [])
  | some attached =>
    if (Text.after? Word.separatorText spelling).isSome then .error (.needlessValue s attached)
    else lettersOf s attached

/-- What was read of a command line: the options, the files if there were any, the words that
    are left over, and the words of the row that is being read. -/
structure Reader where
  options : Options
  files : Option (List Text)
  leftOver : List Text
  row : List Word
  deriving Repr, DecidableEq

namespace Reader

/-- Nothing has been read. -/
def start : Reader := ⟨.empty, none, [], []⟩

/-- The text of a word in a row. -/
def textOf : Word → Text
  | .argument t => t
  | .separator => Word.separatorText
  | .option _ t _ => t
  | .unknown t => t

/-- The arguments of a row, without the first pair of dashes. -/
def argumentsOf (row : List Word) : List Text := (row.map textOf).erase Word.separatorText

/-- Is there an argument in a row? -/
def hasArgument (row : List Word) : Bool :=
  row.any fun
    | .argument _ => true
    | _ => false

/-- Ends the row: it holds the files, or it is left over. -/
def endRow (r : Reader) : Reader :=
  if r.files.isNone && hasArgument r.row then
    { r with files := some (argumentsOf r.row), row := [] }
  else { r with leftOver := r.leftOver ++ r.row.map textOf, row := [] }

/-- Reads a word of a row. -/
def addToRow (r : Reader) (w : Word) : Reader := { r with row := r.row ++ [w] }

/-- Obeys an option with its value. -/
def obeyValue (r : Reader) (s : Switch) (value : Text) (attached : Bool) :
    Except NoRun Reader :=
  match r.options.setValue s value attached with
  | .ok options => .ok { r.endRow with options }
  | .error m => .error (.misuse m)

/-- Obeys an option without a value. -/
def obey (r : Reader) (s : Switch) (spelling : Text) (attached : Option Text) :
    Except NoRun Reader :=
  match switchesOf s spelling attached with
  | .error m => .error (.misuse m)
  | .ok switches => (r.options.setAll switches).map fun options => { r.endRow with options }

/-- Reads words up to the end. -/
def readAll (r : Reader) : List Word → Except NoRun Reader
  | [] => .ok r.endRow
  | .argument t :: ws => readAll (r.addToRow (.argument t)) ws
  | .separator :: ws => readAll (r.addToRow .separator) ws
  | .unknown t :: ws =>
    readAll { r.endRow with leftOver := r.endRow.leftOver ++ [t] } ws
  | .option s spelling attached :: ws =>
    if s.takesValue then
      match attached, ws with
      | some value, ws => do readAll (← r.obeyValue s value true) ws
      | none, .argument value :: ws => do readAll (← r.obeyValue s value false) ws
      | none, _ => .error (.misuse (.noValue s))
    else do readAll (← r.obey s spelling attached) ws

/-- The options that were read, if nothing is missing and nothing is left over. -/
def finish (r : Reader) : Except Misuse Options :=
  match r.files with
  | none => .error .noFiles
  | some files =>
    if r.leftOver.isEmpty then .ok { r.options with files := files.map Path.ofText }
    else .error (.unknownWords r.leftOver)

end Reader

/-- The options of a command line. -/
def Options.read (words : List Text) : Except NoRun Options :=
  match Word.classifyAll words with
  | .error m => .error (.misuse m)
  | .ok ws =>
    match Reader.start.readAll ws with
    | .error e => .error e
    | .ok r =>
      match r.finish with
      | .ok o => .ok o
      | .error m => .error (.misuse m)

end GoLayout.Command
