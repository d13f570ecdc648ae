import GoLayout.EnvFile.Reference
import GoLayout.EnvFile.Statement
import GoLayout.File.Tree
import GoLayout.Log.Record
import GoLayout.Settings.Environment
import GoLayout.Text.Decimal

/-! # Environment files

    The statements of a file are read in order. A value may refer to variables of the
    process and of earlier statements, and of several assignments of one name the last one
    holds. What the process has already is not changed. A variable of the process can switch
    the files off. -/

namespace GoLayout.EnvFile

/-- The statements of a text, each with the number of the line where it starts. -/
def statements (line : Nat) (t : Text) : List (Nat × Statement) :=
  if _h : t = [] then []
  else
    (line, (Statement.read t).1) ::
      statements (line + (t.count '\n' - (Statement.read t).2.count '\n')) (Statement.read t).2
termination_by t.length
decreasing_by exact Statement.read_length _h

/-- The text without a byte order mark at its start. -/
def afterMark (t : Text) : Text :=
  match t with
  | '\ufeff' :: rest => rest
  | _ => t

/-- The statements of a file with the given text. -/
def statementsOf (t : Text) : List (Nat × Statement) := statements 1 (afterMark t)

/-- What is reported of the statements that cannot be read. -/
def records (numbered : List (Nat × Statement)) : List Log.Record :=
  numbered.filterMap fun
    | (line, .unreadable) =>
      some ⟨.settingsFile, .warning,
        Text.concat ["python-dotenv could not parse statement starting at line ",
          Decimal.ofNat line]⟩
    | _ => none

/-- The values of names so far, each name once in the order of first assignments. -/
abbrev Values := List (Text × Option Text)

/-- Assigns a value to a name. -/
def assign (name : Text) (value : Option Text) : Values → Values
  | [] => [(name, value)]
  | (n, v) :: more => if n = name then (n, value) :: more else (n, v) :: assign name value more

/-- What a reference stands for: a variable of the process, else one that was assigned, else
    the text for a missing one. -/
def resolve (env : Environment) (values : Values) (r : Reference) : Text :=
  match env.get? r.name with
  | some v => v
  | none =>
    match values.lookup r.name with
    | some v => v.getD []
    | none => r.default

/-- The values behind a statement. -/
def obey (env : Environment) (values : Values) : Statement → Values
  | .assignment name value => assign name (value.map (expand (resolve env values))) values
  | .empty => values
  | .unreadable => values

/-- The values that a file gives, where there are any. -/
def values (env : Environment) (numbered : List (Nat × Statement)) : List (Text × Text) :=
  (numbered.foldl (fun vs s => obey env vs s.2) []).filterMap fun (n, v) => v.map ((n, ·))

/-- The variables that a statement names. -/
def namesOf : Statement → List Text
  | .assignment name value => name :: (references (value.getD [])).map (·.name)
  | .empty => []
  | .unreadable => []

/-- The variables that a text names; of a process only their values matter. -/
def names (t : Text) : List Text := (statementsOf t).flatMap fun s => namesOf s.2

/-- Why an environment file cannot be used. -/
inductive Fault where
  | file (fault : ReadFault)
  | definition (fault : VariableFault)
  deriving Repr, DecidableEq

/-- The wording of a file that cannot be used. -/
def Fault.message : Fault → Text
  | file f => f.message
  | definition f => f.message

/-- The text of the environment file at a path, empty where there is no file. -/
def text (tree : FileTree) (path : Path) : Except ReadFault Text :=
  match tree.node path with
  | .ok (.file _ bytes) => textOfBytes bytes
  | .error (.nameTooLong p) => .error (.path (.nameTooLong p))
  | _ => .ok []

/-- The variable of the process that switches environment files off. -/
def offVariable : Text := "PYTHON_DOTENV_DISABLED"

/-- The values that switch environment files off. -/
def offWords : List Text := ["1", "true", "t", "yes", "y"]

/-- A letter without its case; the long s is an s. -/
def foldCase (c : Char) : Char := if c = 'ſ' then 's' else c.toLower

/-- Are environment files switched off? Case does not count, but blanks do. -/
def isOff (env : Environment) : Bool :=
  (env.get? offVariable).any fun value => offWords.contains (value.map foldCase)

/-- The environment that is completed by the text of a file, and what is reported. A file that
    is switched off is not even decoded, but its path must be one that can be looked up. -/
def load (env : Environment) (content : Except ReadFault Text) :
    List Log.Record × Except Fault Environment :=
  match content, isOff env with
  | .error (.path f), _ => ([], .error (.file (.path f)))
  | _, true => ([], .ok env)
  | .error f, false => ([], .error (.file f))
  | .ok t, false =>
    (records (statementsOf t),
      match env.defineAll (values env (statementsOf t)) with
      | .ok env => .ok env
      | .error f => .error (.definition f))

/-- The environment file that is read where no other one is named. -/
def defaultPath : Path := Path.ofText ".env"

end GoLayout.EnvFile
