import GoLayout.Command.Cursor
import GoLayout.Target

/-! # Words of a command line

    Every word of a command line is an option, an argument or the separator behind which
    there are only arguments. An option may be shortened as long as only one begins that
    way, and its value may follow an equals sign. -/

namespace GoLayout.Command

/-- The options. -/
inductive Switch where
  | help
  | architecture
  | wordSize
  | structName
  | cursor
  | onlyOptimizable
  | failOnOptimizable
  | allNames
  | json
  | logDirectory
  | verbose
  deriving Repr, DecidableEq

namespace Switch

/-- The options in the order of the help text. -/
def all : List Switch :=
  [help, architecture, wordSize, structName, cursor, onlyOptimizable, failOnOptimizable, allNames,
    json, logDirectory, verbose]

/-- The spellings of an option. -/
def spellings : Switch → List Text
  | help => ["-h", "--help"]
  | architecture => ["--arch"]
  | wordSize => ["--word-size"]
  | structName => ["--struct"]
  | cursor => ["--at"]
  | onlyOptimizable => ["--only-optimizable"]
  | failOnOptimizable => ["--fail-on-optimizable"]
  | allNames => ["--expand-multi-name"]
  | json => ["--json"]
  | logDirectory => ["--log-dir"]
  | verbose => ["-v", "--verbose"]

/-- Does the option need a value? -/
def takesValue : Switch → Bool
  | architecture | wordSize | structName | cursor | logDirectory => true
  | _ => false

/-- The name of an option in messages. -/
def title (s : Switch) : Text := Text.joinWith ['/'] s.spellings

/-- All spellings with their options. -/
def table : List (Text × Switch) := all.flatMap fun s => s.spellings.map fun t => (t, s)

/-- The option with a given spelling. -/
def ofSpelling? (t : Text) : Option Switch := table.lookup t

end Switch

/-- Why a command line cannot be obeyed. -/
inductive Misuse where
  | ambiguous (word : Text) (candidates : List Text)
  | noValue (s : Switch)
  | needlessValue (s : Switch) (value : Text)
  | notAnInteger (s : Switch) (value : Text)
  | notAChoice (s : Switch) (value : Text) (choices : List Text)
  | notACursor (s : Switch) (fault : Cursor.Fault)
  | noFiles
  | unknownWords (words : List Text)
  deriving Repr, DecidableEq

namespace Misuse

/-- The wording of what is wrong with an option. -/
def about (s : Switch) (parts : List Text) : Text :=
  Text.concat ("argument " :: s.title :: ": " :: parts)

/-- The wording of a command line that cannot be obeyed. -/
def message : Misuse → Text
  | ambiguous word candidates =>
    Text.concat ["ambiguous option: ", word, " could match ", Text.joinWith ", " candidates]
  | noValue s => about s ["expected one argument"]
  | needlessValue s value => about s ["ignored explicit argument ", value.quoted]
  | notAnInteger s value => about s ["invalid int value: ", value.quoted]
  | notAChoice s value choices =>
    about s ["invalid choice: ", value, " (choose from ", Text.joinWith ", " choices, ")"]
  | notACursor s fault => about s [fault.message]
  | noFiles => "the following arguments are required: files"
  | unknownWords words => Text.concat ["unrecognized arguments: ", Text.joinWith [' '] words]

end Misuse

/-- A word of a command line: an argument, the separator, an option with its spelling and the
    value attached to it, or something that looks like an option. -/
inductive Word where
  | argument (t : Text)
  | separator
  | option (s : Switch) (spelling : Text) (attached : Option Text)
  | unknown (t : Text)
  deriving Repr, DecidableEq

namespace Word

/-- The separator. -/
def separatorText : Text := ['-', '-']

/-- Are these decimal digits, at least one? -/
def isDigits (t : Text) : Bool := !t.isEmpty && t.all fun c => (digitValue? c).isSome

/-- Is this a negative number in plain notation, perhaps with a line end behind it? -/
def isNegativeNumber : Text → Bool
  | '-' :: t =>
    let t := if t.getLast? = some '\n' then t.dropLast else t
    isDigits t ||
      match Text.cutAt? '.' t with
      | some (before, after) => (before.isEmpty || isDigits before) && isDigits after
      | none => false
  | _ => false

/-- The parts of a word before and after the first equals sign. -/
def splitValue (t : Text) : Text × Option Text :=
  match Text.cutAt? '=' t with
  | some (before, after) => (before, some after)
  | none => (t, none)

/-- The options that a word may mean: those with a long spelling that begins like it, or the
    one with the short spelling that it starts with. -/
def candidates (t : Text) : List (Switch × Text × Option Text) :=
  match t with
  | '-' :: '-' :: _ =>
    (Switch.table.filter fun (spelling, _) => (Text.after? (splitValue t).1 spelling).isSome).map
      fun (spelling, s) => (s, spelling, (splitValue t).2)
  | '-' :: c :: attached =>
    (Switch.table.filter (·.1 = ['-', c])).map fun (spelling, s) => (s, spelling, some attached)
  | _ => []

/-- The option with exactly the spelling of a word, or of the part before an equals sign. -/
def spelled? (t : Text) : Option Word :=
  match Switch.ofSpelling? t with
  | some s => some (.option s t none)
  | none =>
    match splitValue t with
    | (spelling, some value) =>
      (Switch.ofSpelling? spelling).map fun s => .option s spelling (some value)
    | (_, none) => none

/-- What a word is that starts like an option. -/
def classifyDashed (t : Text) : Except Misuse Word :=
  match spelled? t with
  | some w => .ok w
  | none =>
    match candidates t with
    | [(s, spelling, attached)] => .ok (.option s spelling attached)
    | [] =>
      .ok (if isNegativeNumber t || t.contains ' ' then .argument t else .unknown t)
    | several => .error (.ambiguous t (several.map (·.2.1)))

/-- What a word in front of the separator is. -/
def classify (t : Text) : Except Misuse Word :=
  match t with
  | '-' :: _ :: _ => classifyDashed t
  | _ => .ok (.argument t)

/-- What the words of a command line are. -/
def classifyAll : List Text → Except Misuse (List Word)
  | [] => .ok []
  | t :: ts =>
    if t = separatorText then .ok (.separator :: ts.map .argument)
    else do
      let w ← classify t
      let ws ← classifyAll ts
      return w :: ws

end Word

end GoLayout.Command
