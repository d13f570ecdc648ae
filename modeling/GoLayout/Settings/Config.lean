import GoLayout.File.Path
import GoLayout.Settings.Basic

/-! # Configurations

    What a run needs to know. A configuration starts from the settings of the environment;
    what is asked for explicitly comes before them. An explicit architecture brings its own
    word size, and an explicit word size comes before that. `check_eq_ok_iff` says which
    configurations are accepted. -/

namespace GoLayout

/-- A configuration; the word size is not checked yet. -/
structure Config where
  architecture : Text
  wordSize : Int
  verbose : Bool
  logDirectory : Option Path
  annotations : Bool
  warnings : Bool
  allNames : Bool
  deriving Repr, DecidableEq

/-- What is asked for explicitly. -/
structure Overrides where
  architecture : Option Text
  wordSize : Option Int
  verbose : Option Bool
  logDirectory : Option Path
  allNames : Option Bool
  deriving Repr, DecidableEq

/-- Nothing is asked for. -/
def Overrides.empty : Overrides := ⟨none, none, none, none, none⟩

namespace Config

/-- The configuration for an architecture; an unknown one has the default word size. -/
def ofArchitecture (architecture : Text) : Config where
  architecture := architecture
  wordSize := (Architecture.wordSize? architecture).elim 8 fun w => w.bytes
  verbose := false
  logDirectory := none
  annotations := true
  warnings := true
  allNames := false

/-- The configuration where nothing is said. -/
def default : Config := ofArchitecture Architecture.default

/-- The architecture of some settings; an empty one is the default. -/
def architectureOf (s : Settings) : Text :=
  if s.architecture.isEmpty then Architecture.default else s.architecture

/-- The configuration that settings describe. -/
def ofSettings (s : Settings) : Config where
  architecture := architectureOf s
  wordSize := if s.wordSize = 0 then (ofArchitecture (architectureOf s)).wordSize else s.wordSize
  verbose := s.verbose
  logDirectory := if s.logDirectory.isEmpty then none else some (Path.ofText s.logDirectory)
  annotations := s.annotations
  warnings := s.warnings
  allNames := s.allNames

/-- The word size of an explicit architecture, if it is known; else the one so far. -/
def wordSizeFor (c : Config) (architecture : Option Text) : Int :=
  match architecture.bind Architecture.wordSize? with
  | some w => w.bytes
  | none => c.wordSize

/-- The configuration with what is asked for explicitly. -/
def override (c : Config) (o : Overrides) : Config where
  architecture := o.architecture.getD c.architecture
  wordSize := o.wordSize.getD (c.wordSizeFor o.architecture)
  verbose := o.verbose.getD c.verbose
  logDirectory := o.logDirectory.or c.logDirectory
  annotations := c.annotations
  warnings := c.warnings
  allNames := o.allNames.getD c.allNames

/-- The word size of a configuration for which layouts can be computed, or the reason why
    there is none. The architecture has to be known even where it does not decide. -/
def check (c : Config) : Except TargetError WordSize :=
  match Architecture.wordSize? c.architecture with
  | none => .error (.unknownArchitecture c.architecture)
  | some _ => WordSize.check c.wordSize

theorem check_eq_ok_iff {c : Config} {w : WordSize} :
    c.check = .ok w ↔
      (Architecture.wordSize? c.architecture).isSome = true ∧
        WordSize.ofInt? c.wordSize = some w := by
  unfold check WordSize.check
  cases Architecture.wordSize? c.architecture <;> cases WordSize.ofInt? c.wordSize <;> simp

/-- The configuration of an environment and what is asked for explicitly. -/
def ofEnvironment (env : Environment) (o : Overrides) : Config :=
  (ofSettings (.ofEnvironment env)).override o

/-- The configuration of a process, of the environment file that it may have, and of what is asked
    for explicitly; there is none where the file cannot be loaded. -/
def ofProcess {Fault : Type} (load : Environment → Text → Except Fault Environment)
    (env : Environment) (file : Option Text) (o : Overrides) : Except Fault Config :=
  (env.behind load file).map fun loaded => ofEnvironment loaded o

end Config

end GoLayout
