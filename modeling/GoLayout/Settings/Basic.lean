import GoLayout.Settings.Environment
import GoLayout.Target

/-! # Settings

    What the environment says about a run. Each setting has a variable of its own; a missing
    variable leaves the default, and so does a number that cannot be read. -/

namespace GoLayout

/-- The settings as they stand in the environment. A word size of zero leaves the choice to
    the architecture, and an empty log directory means none. -/
structure Settings where
  architecture : Text
  wordSize : Int
  verbose : Bool
  logDirectory : Text
  annotations : Bool
  warnings : Bool
  allNames : Bool
  deriving Repr, DecidableEq

namespace Settings

/-- The settings where the environment says nothing. -/
def default : Settings := ⟨Architecture.default, 0, false, [], true, true, false⟩

/-- The variable of a setting. -/
def variableName (key : Text) : Text := Text.concat ["GOSA_", key]

/-- The variables of all settings. -/
def variableNames : List Text :=
  ["ARCHITECTURE", "WORD_SIZE", "VERBOSE", "LOG_DIR", "SHOW_INLINE_ANNOTATIONS",
    "ENABLE_OPTIMIZATION_WARNINGS", "EXPAND_MULTI_NAME_FIELDS"].map fun key =>
    variableName (String.toList key)

/-- The words that switch something on. -/
def onWords : List Text := ["true", "1", "yes", "on"]

/-- Does a value switch something on? Outer blanks do not count, and neither does the case of
    Latin letters. -/
def isOn (value : Text) : Bool := onWords.contains ((Text.trim value).map Char.toLower)

/-- The switch in a variable. -/
def switch (env : Environment) (key : Text) (default : Bool) : Bool :=
  match env.get? (variableName key) with
  | some value => isOn value
  | none => default

/-- The number in a variable. -/
def number (env : Environment) (key : Text) (default : Int) : Int :=
  match env.get? (variableName key) with
  | some value => (Decimal.readInt? value).getD default
  | none => default

/-- The text in a variable, without outer blanks. -/
def text (env : Environment) (key default : Text) : Text :=
  match env.get? (variableName key) with
  | some value => Text.trim value
  | none => default

/-- The settings in an environment. -/
def ofEnvironment (env : Environment) : Settings where
  architecture := text env "ARCHITECTURE" default.architecture
  wordSize := number env "WORD_SIZE" default.wordSize
  verbose := switch env "VERBOSE" default.verbose
  logDirectory := text env "LOG_DIR" default.logDirectory
  annotations := switch env "SHOW_INLINE_ANNOTATIONS" default.annotations
  warnings := switch env "ENABLE_OPTIMIZATION_WARNINGS" default.warnings
  allNames := switch env "EXPAND_MULTI_NAME_FIELDS" default.allNames

end Settings

end GoLayout
