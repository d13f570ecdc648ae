import GoLayout.Proofs.EnvFile.Loading
import GoLayout.Proofs.Text.Lines
import GoLayout.Session

/-! # Sources of settings

    A setting comes from the first of its sources that says something: an argument, a variable of
    the process, what the environment file gives for that variable, and last a default. The
    configuration of a process and its arguments is made of settings each of which sees its own
    sources alone, but for the word size, which may follow the architecture (`ofProcess_sources`).
    How the file is read does not matter, as long as it completes the environment. -/

namespace GoLayout

/-- Where a setting may come from: its argument, its variable in the process, and what the
    environment file gives for that variable. -/
structure Sources (α : Type) where
  argument : Option α
  process : Option Text
  file : Option Text

namespace Sources

variable {α : Type}

/-- The sources of the setting with a given key, of which the file gives what it assigns last. -/
def ofKey (env : Environment) (assignments : List (Text × Option Text)) (key : Text)
    (argument : Option α) : Sources α where
  argument := argument
  process := env.get? (Settings.variableName key)
  file := Environment.lastAssigned? assignments (Settings.variableName key)

/-- The value of the variable; the file counts only where the process has none. -/
def value? (s : Sources α) : Option Text := s.process.or s.file

/-- What the first source says, where a value of the variable says what is read from it. -/
def first? (read : Text → Option α) (s : Sources α) : Option α :=
  s.argument.or (s.value?.bind read)

/-- The text in a value, which is not blank. -/
def nonBlank? (t : Text) : Option Text := if t.AllBlank then none else some t.trim

/-- The number in a value, which is not zero. -/
def nonZero? (t : Text) : Option Int := (Decimal.readInt? t).filter (· ≠ 0)

/-- The pointer width of a known architecture. -/
def width? (architecture : Text) : Option Int :=
  (Architecture.wordSize? architecture).map fun w => (w.bytes : Int)

/-- The architecture that its sources ask for. -/
def architecture (s : Sources Text) : Text := (s.first? nonBlank?).getD Architecture.default

/-- The log directory that its sources ask for. -/
def directory? (s : Sources Path) : Option Path := s.first? fun t => (nonBlank? t).map Path.ofText

/-- The switch that its sources ask for. -/
def switch (default : Bool) (s : Sources Bool) : Bool :=
  (s.first? fun t => some (Settings.isOn t)).getD default

/-- The word size that its sources ask for, and those of the architecture: an argument for the
    architecture comes before a variable for the word size. -/
def wordSize (size : Sources Int) (arch : Sources Text) : Int :=
  size.argument.getD <|
    (arch.argument.bind width?).getD <|
      (size.value?.bind nonZero?).getD <|
        (width? { arch with argument := none }.architecture).getD 8

/-! ## Settings from their sources -/

/-- Blank values are told from others by what is left of them between their margins. -/
theorem elim_nonBlank? {β : Type} (t : Text) (blank : β) (f : Text → β) :
    (nonBlank? t).elim blank f = if t.trim.isEmpty then blank else f t.trim := by
  rw [nonBlank?]
  by_cases hblank : t.AllBlank
  · rw [if_pos hblank, if_pos (List.isEmpty_iff.mpr (Text.trim_eq_nil_iff.mpr hblank))]
    rfl
  · rw [if_neg hblank, if_neg fun h => hblank (Text.trim_eq_nil_iff.mp (List.isEmpty_iff.mp h))]
    rfl

/-- An argument comes before the variable, and both before the default. -/
theorem first?_getD (read : Text → Option α) (default : α) (s : Sources α) :
    (s.first? read).getD default = s.argument.getD ((s.value?.bind read).getD default) := by
  rw [first?]
  cases s.argument <;> rfl

variable {env : Environment} {key : Text}

theorem switch_eq {s : Sources Bool} (h : env.get? (Settings.variableName key) = s.value?)
    (default : Bool) : s.argument.getD (Settings.switch env key default) = s.switch default := by
  rw [switch, first?_getD, Settings.switch, h]
  cases s.value? <;> rfl

/-- The settings read the architecture as its sources without an argument say. -/
theorem architecture_eq {s : Sources Text} (h : env.get? (Settings.variableName key) = s.value?) :
    (if (Settings.text env key Architecture.default).isEmpty then Architecture.default
      else Settings.text env key Architecture.default) =
      { s with argument := none }.architecture := by
  rw [architecture, first?, Settings.text, h]
  show _ = (s.value?.bind nonBlank?).getD _
  cases s.value? with
  | none => rfl
  | some t =>
      refine (elim_nonBlank? t Architecture.default id).symm.trans ?_
      rw [Option.bind_some]
      cases nonBlank? t <;> rfl

theorem architecture_getD (s : Sources Text) :
    s.architecture = s.argument.getD { s with argument := none }.architecture :=
  first?_getD nonBlank? Architecture.default s

/-- The log directory is read from where its sources say. -/
theorem directory?_eq {s : Sources Path} (h : env.get? (Settings.variableName key) = s.value?) :
    s.argument.or (if (Settings.text env key []).isEmpty then none
      else some (Path.ofText (Settings.text env key []))) = s.directory? := by
  rw [directory?, first?, Settings.text, h]
  congr 1
  cases s.value? with
  | none => rfl
  | some t =>
      refine (elim_nonBlank? t none fun t => some (Path.ofText t)).symm.trans ?_
      rw [Option.bind_some]
      cases nonBlank? t <;> rfl

/-- A value of zero counts as none, as does one that is no number. -/
theorem nonZero?_getD (t : Text) (default : Int) : (nonZero? t).getD default =
    if (Decimal.readInt? t).getD 0 = 0 then default else (Decimal.readInt? t).getD 0 := by
  rw [nonZero?]
  cases Decimal.readInt? t with
  | none => rfl
  | some n =>
      by_cases hzero : n = 0
      · rw [hzero]
        rfl
      · simp [Option.filter, hzero]

/-- The word size is read from where its sources and those of the architecture say. -/
theorem wordSize_eq {size : Sources Int} (h : env.get? (Settings.variableName key) = size.value?)
    (arch : Sources Text) :
    size.argument.getD ((arch.argument.bind width?).getD
      (if Settings.number env key 0 = 0 then
        (width? { arch with argument := none }.architecture).getD 8
      else Settings.number env key 0)) = size.wordSize arch := by
  rw [wordSize]
  -- an argument for either setting decides alone; what is left are the variables
  congr 2
  rw [Settings.number, h]
  cases size.value? with
  | none => rfl
  | some t => exact (nonZero?_getD t _).symm

end Sources

namespace Config

theorem wordSizeFor_eq (c : Config) (architecture : Option Text) :
    c.wordSizeFor architecture = (architecture.bind Sources.width?).getD c.wordSize := by
  cases architecture with
  | none => rfl
  | some a =>
      rw [wordSizeFor, Option.bind_some, Option.bind_some, Sources.width?]
      cases Architecture.wordSize? a <;> rfl

theorem ofArchitecture_wordSize (architecture : Text) :
    (ofArchitecture architecture).wordSize = (Sources.width? architecture).getD 8 := by
  rw [ofArchitecture, Sources.width?]
  cases Architecture.wordSize? architecture <;> rfl

end Config

/-! ## Configurations from their sources -/

/-- The sources of all settings. -/
structure AllSources where
  architecture : Sources Text
  wordSize : Sources Int
  verbose : Sources Bool
  logDirectory : Sources Path
  annotations : Sources Bool
  warnings : Sources Bool
  allNames : Sources Bool

namespace AllSources

/-- The sources of the settings where a process whose environment file makes some assignments is
    given arguments. -/
def of (env : Environment) (assignments : List (Text × Option Text)) (o : Overrides) :
    AllSources where
  architecture := .ofKey env assignments "ARCHITECTURE" o.architecture
  wordSize := .ofKey env assignments "WORD_SIZE" o.wordSize
  verbose := .ofKey env assignments "VERBOSE" o.verbose
  logDirectory := .ofKey env assignments "LOG_DIR" o.logDirectory
  annotations := .ofKey env assignments "SHOW_INLINE_ANNOTATIONS" none
  warnings := .ofKey env assignments "ENABLE_OPTIMIZATION_WARNINGS" none
  allNames := .ofKey env assignments "EXPAND_MULTI_NAME_FIELDS" o.allNames

/-- The configuration that the sources ask for, setting by setting. -/
def config (s : AllSources) : Config where
  architecture := s.architecture.architecture
  wordSize := s.wordSize.wordSize s.architecture
  verbose := s.verbose.switch false
  logDirectory := s.logDirectory.directory?
  annotations := s.annotations.switch true
  warnings := s.warnings.switch true
  allNames := s.allNames.switch false

end AllSources

namespace Config

/-- Where the environment has been completed by some assignments, each setting is what its sources
    ask for. -/
theorem ofEnvironment_eq {env loaded : Environment} {assignments : List (Text × Option Text)}
    (h : ∀ name, loaded.get? name =
      (env.get? name).or (Environment.lastAssigned? assignments name)) (o : Overrides) :
    ofEnvironment loaded o = (AllSources.of env assignments o).config := by
  have hvalue {α : Type} (key : Text) (argument : Option α) :
      loaded.get? (Settings.variableName key) =
        (Sources.ofKey env assignments key argument).value? := h _
  have harch := Sources.architecture_eq (hvalue "ARCHITECTURE" o.architecture)
  rw [ofEnvironment, override, AllSources.config, Config.mk.injEq]
  -- setting by setting; only the word size hangs on another one
  refine ⟨?_, ?_, ?_, ?_, ?_, ?_, ?_⟩
  · rw [Sources.architecture_getD]
    exact congrArg _ harch
  · have hsettings : (ofSettings (.ofEnvironment loaded)).wordSize =
        if Settings.number loaded "WORD_SIZE" 0 = 0 then
          (Sources.width? (Sources.ofKey env assignments "ARCHITECTURE" none).architecture).getD 8
        else Settings.number loaded "WORD_SIZE" 0 := by
      rw [← ofArchitecture_wordSize]
      exact congrArg (fun a => ite _ (ofArchitecture a).wordSize _) harch
    rw [wordSizeFor_eq, hsettings]
    exact Sources.wordSize_eq (hvalue "WORD_SIZE" o.wordSize)
      (.ofKey env assignments "ARCHITECTURE" _)
  · exact Sources.switch_eq (hvalue "VERBOSE" o.verbose) false
  · exact Sources.directory?_eq (hvalue "LOG_DIR" o.logDirectory)
  · exact Sources.switch_eq (hvalue "SHOW_INLINE_ANNOTATIONS" none) true
  · exact Sources.switch_eq (hvalue "ENABLE_OPTIMIZATION_WARNINGS" none) true
  · exact Sources.switch_eq (hvalue "EXPAND_MULTI_NAME_FIELDS" o.allNames) false

end Config

/-! ## Accepted configurations -/

/-- The known architectures are those with a word size. -/
theorem Architecture.mem_names_iff {architecture : Text} :
    architecture ∈ names ↔ (wordSize? architecture).isSome = true := by
  rw [wordSize?, List.lookup_isSome_iff, names, List.mem_map]
  exact exists_congr fun p => and_congr_right' (by rw [beq_iff_eq, eq_comm])

theorem WordSize.exists_ofInt?_iff {n : Int} :
    (∃ w, ofInt? n = some w) ↔ n = 4 ∨ n = 8 := by
  rw [ofInt?]
  split <;> simp [*]

namespace Config

/-- A configuration is accepted where its architecture is known and its word size is supported. -/
theorem exists_check_iff {c : Config} : (∃ w, c.check = .ok w) ↔
    c.architecture ∈ Architecture.names ∧ (c.wordSize = 4 ∨ c.wordSize = 8) := by
  rw [Architecture.mem_names_iff, ← WordSize.exists_ofInt?_iff, ← exists_and_left]
  exact exists_congr fun w => check_eq_ok_iff

/-- A session starts with an accepted configuration. -/
theorem start_of_check {c : Config} {w : WordSize} (h : c.check = .ok w) (counting : Bool) :
    ∃ s, Session.start c counting = .ok s ∧ s.word = w := by
  rw [Session.start, WordSize.check, (check_eq_ok_iff.mp h).2]
  exact ⟨_, rfl, rfl⟩

/-- Settings with the same sources are the same, whatever the sources of the others are; the word
    size hangs on those of the architecture as well. -/
structure Independent (s s' : AllSources) (c c' : Config) : Prop where
  architecture : s.architecture = s'.architecture → c.architecture = c'.architecture
  wordSize : s.wordSize = s'.wordSize → s.architecture = s'.architecture →
    c.wordSize = c'.wordSize
  verbose : s.verbose = s'.verbose → c.verbose = c'.verbose
  logDirectory : s.logDirectory = s'.logDirectory → c.logDirectory = c'.logDirectory
  annotations : s.annotations = s'.annotations → c.annotations = c'.annotations
  warnings : s.warnings = s'.warnings → c.warnings = c'.warnings
  allNames : s.allNames = s'.allNames → c.allNames = c'.allNames

theorem independent_config (s s' : AllSources) : Independent s s' s.config s'.config where
  architecture := congrArg Sources.architecture
  wordSize hsize harch := congrArg₂ Sources.wordSize hsize harch
  verbose := congrArg (Sources.switch false)
  logDirectory := congrArg Sources.directory?
  annotations := congrArg (Sources.switch true)
  warnings := congrArg (Sources.switch true)
  allNames := congrArg (Sources.switch false)

section Process

variable {Fault : Type} {load : Environment → Text → Except Fault Environment}
  {assigned : Environment → Text → List (Text × Option Text)}

/-- The sources of the settings of a process with the environment file that it may have. -/
def sourcesOf (assigned : Environment → Text → List (Text × Option Text)) (env : Environment)
    (file : Option Text) (o : Overrides) : AllSources :=
  .of env (file.elim [] (assigned env)) o

/-- Behind its environment file a process has the values that it had and those that the file
    assigns last. -/
theorem get?_behind (hload : Environment.Completes load assigned) {env loaded : Environment}
    {file : Option Text} (h : env.behind load file = .ok loaded) (name : Text) :
    loaded.get? name =
      (env.get? name).or (Environment.lastAssigned? (file.elim [] (assigned env)) name) := by
  cases file with
  | none =>
      obtain rfl := Except.ok.inj h
      exact Option.or_none.symm
  | some t => exact hload env t loaded h name

/-- With any loader that completes the environment, a configuration is that of its sources. -/
theorem ofProcess_eq (hload : Environment.Completes load assigned) (env : Environment)
    (file : Option Text) (o : Overrides) :
    ofProcess load env file o =
      (env.behind load file).map fun _ => (sourcesOf assigned env file o).config := by
  rw [ofProcess]
  cases hbehind : env.behind load file with
  | error f => rfl
  | ok loaded => exact congrArg Except.ok (ofEnvironment_eq (get?_behind hload hbehind) o)

/-- So every configuration that there is comes from its sources alone. -/
theorem eq_config_of_ofProcess (hload : Environment.Completes load assigned) {env : Environment}
    {file : Option Text} {o : Overrides} {c : Config} (h : ofProcess load env file o = .ok c) :
    c = (sourcesOf assigned env file o).config := by
  rw [ofProcess_eq hload] at h
  cases hbehind : env.behind load file with
  | error f => rw [hbehind] at h; exact nomatch h
  | ok loaded => rw [hbehind] at h; exact (Except.ok.inj h).symm

/-- Where the environment file completes the environment, there is a configuration, in which every
    setting is what the first of its sources asks for, independently of the sources of the others.
    It is accepted exactly where its architecture is known and its word size is four or eight, and
    then a session starts with it. -/
theorem ofProcess_sources (hload : Environment.Completes load assigned) (env : Environment)
    (file : Option Text) (o : Overrides) :
    ofProcess load env file o =
      (env.behind load file).map (fun _ => (sourcesOf assigned env file o).config) ∧
    (∀ env' file' o' c c', ofProcess load env file o = .ok c →
      ofProcess load env' file' o' = .ok c' →
        Independent (sourcesOf assigned env file o) (sourcesOf assigned env' file' o') c c') ∧
    ∀ c : Config,
      ((∃ w, c.check = .ok w) ↔
        c.architecture ∈ Architecture.names ∧ (c.wordSize = 4 ∨ c.wordSize = 8)) ∧
      ∀ w counting, c.check = .ok w → ∃ s, Session.start c counting = .ok s ∧ s.word = w := by
  refine ⟨ofProcess_eq hload env file o, ?_, fun c => ⟨exists_check_iff, fun w counting hcheck =>
    start_of_check hcheck counting⟩⟩
  intro env' file' o' c c' hc hc'
  rw [eq_config_of_ofProcess hload hc, eq_config_of_ofProcess hload hc']
  exact independent_config _ _

end Process

/-- A process with a blank architecture, a word size of zero and a switch. -/
def blankProcess : Environment :=
  ⟨[("GOSA_ARCHITECTURE", "  "), ("GOSA_WORD_SIZE", "0"), ("GOSA_VERBOSE", " YES")]⟩

/-- A file with a log directory assigned twice and a switch that refers to another one. -/
def twiceAssigned : Text :=
  "GOSA_ARCHITECTURE=386\nGOSA_LOG_DIR=logs\nexport GOSA_LOG_DIR='out'  # last\n" ++
    "GOSA_EXPAND_MULTI_NAME_FIELDS=$\x7bGOSA_VERBOSE\x7d"

/-- An argument that turns the verbose output off. -/
def quiet : Overrides := { Overrides.empty with verbose := some false }

/-- What the process, the file and the argument come to. -/
def blankConfig : Config := ⟨"amd64", 8, false, some ⟨[], ["out"]⟩, true, true, true⟩

/-- A file that assigns to one variable twice, behind a process with a blank one. -/
theorem ofProcess_blankProcess :
    Environment.Completes EnvFile.loadText EnvFile.assigned ∧
    ofProcess EnvFile.loadText blankProcess (some twiceAssigned) quiet = .ok blankConfig ∧
    (∃ w, blankConfig.check = .ok w) ∧
    ∃ s, Session.start blankConfig true = .ok s ∧ s.word = .eight := by
  obtain ⟨hconfig, -, haccepted⟩ :=
    ofProcess_sources EnvFile.loadText_completes blankProcess (some twiceAssigned) quiet
  obtain ⟨hiff, hstart⟩ := haccepted blankConfig
  refine ⟨EnvFile.loadText_completes, hconfig.trans ?_, hiff.mpr ⟨?_, .inr rfl⟩, ?_⟩
  · decide +kernel
  · decide +kernel
  · exact hstart .eight true rfl

end Config

end GoLayout
