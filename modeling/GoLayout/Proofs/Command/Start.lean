import GoLayout.Command.Run
import GoLayout.Proofs.EnvFile.Loading

/-! # How a run starts

    A command line starts a run where its options, the environment file and the configuration are
    accepted (`Start.ofCommandLine_eq_ready_iff`, `Start.ofOptions_eq_ready_iff`).  The run has the
    configuration of the process, of the file and of the options (`Start.config_of_ready`) and
    nothing to report yet, and of its options the files decide nothing about the start
    (`Start.ofCommandLine_alone`). -/

namespace GoLayout

/-- An empty environment file adds nothing. -/
theorem EnvFile.load_empty (env : Environment) : load env (.ok []) = ([], .ok env) := by
  have hnone : statementsOf [] = [] := by
    show statements 1 [] = []
    rw [statements, dif_pos rfl]
  unfold load
  cases isOff env with
  | true => rfl
  | false =>
      dsimp only
      rw [hnone]
      rfl

namespace Command

namespace Run

/-- Nothing was reported so far, no file failed, and nothing ended the run. -/
structure Untouched (r : Run) : Prop where
  reports : r.reports = []
  failures : r.failures = []
  fatal : r.fatal = none

/-- The run over one file alone. -/
def alone (r : Run) (path : Path) : Run := { r with options := { r.options with files := [path] } }

/-- The log directory of a run can be used, and one tree becomes the other when it is made. -/
def LogsInto (r : Run) (tree t : FileTree) : Prop :=
  match r.config.logDirectory with
  | none => t = tree
  | some directory => tree.makeDirectory directory = (none, t)

end Run

namespace Start

variable {journal : Journal} {options : Options} {env : Environment} {words : List Text}
  {envFile : Except ReadFault Text} {now : Float} {r : Run}

/-- A run starts where no option that the start needs stands emptied, with a configuration that is
    accepted. -/
theorem ofOptions_eq_ready_iff :
    ofOptions journal options env = .ready r ↔
      options.isEmptied .architecture = false ∧ options.isEmptied .wordSize = false ∧
        options.isEmptied .logDirectory = false ∧
        ∃ word, (Config.ofEnvironment env options.overrides).check = .ok word ∧
          r = ⟨options, Config.ofEnvironment env options.overrides, word, journal, journal.now, 0,
            [], [], none⟩ := by
  rw [ofOptions]
  -- the checks in their order, each of which ends the run unless it passes
  cases options.isEmptied .architecture with
  | true => simp
  | false =>
      cases options.isEmptied .wordSize with
      | true =>
          cases Architecture.wordSize? (Config.ofEnvironment env options.overrides).architecture with
          | none => simp [refuse]
          | some w => simp
      | false =>
          cases (Config.ofEnvironment env options.overrides).check with
          | error e => simp [refuse]
          | ok word =>
              cases options.isEmptied .logDirectory with
              | true => simp
              | false => simp [eq_comm]

/-- A run is ready where the command line can be read, the environment file can be loaded, and the
    options and the environment of both come to a configuration. -/
theorem ofCommandLine_eq_ready_iff :
    ofCommandLine words env envFile now = .ready r ↔
      ∃ options loaded, Options.read words = .ok options ∧
        (EnvFile.load env envFile).2 = .ok loaded ∧
        ofOptions ((Journal.start .fresh .command now).reportAll (EnvFile.load env envFile).1)
          options loaded = .ready r := by
  rw [ofCommandLine]
  cases Options.read words with
  | error e =>
      cases e with
      | help => simp
      | misuse m => simp [refuse]
  | ok options =>
      -- what is reported of the file does not decide, only whether it could be loaded
      obtain ⟨records, loaded⟩ := EnvFile.load env envFile
      cases loaded with
      | error f => simp [refuse]
      | ok loaded => simp

/-- Without an environment file the environment is the one of the process. -/
theorem ofCommandLine_of_no_envFile (options : Options) (hread : Options.read words = .ok options)
    (hready : ofOptions (Journal.start .fresh .command now) options env = .ready r) :
    ofCommandLine words env (.ok []) now = .ready r := by
  refine ofCommandLine_eq_ready_iff.mpr ⟨options, env, hread, ?_, ?_⟩
  · rw [EnvFile.load_empty]
  · rw [EnvFile.load_empty]
    exact hready

/-- A run that is ready has the configuration that the process, the environment file and the options
    come to. -/
theorem config_of_ready {t : Text} (h : ofCommandLine words env (.ok t) now = .ready r) :
    Config.ofProcess EnvFile.loadText env (some t) r.options.overrides = .ok r.config := by
  obtain ⟨options, loaded, -, hload, hready⟩ := ofCommandLine_eq_ready_iff.mp h
  obtain ⟨-, -, -, word, -, rfl⟩ := ofOptions_eq_ready_iff.mp hready
  have hbehind : env.behind EnvFile.loadText (some t) = .ok loaded := hload
  rw [Config.ofProcess, hbehind]
  rfl

/-- A run that is ready has neither reports nor failures yet. -/
theorem untouched_of_ready (h : ofCommandLine words env envFile now = .ready r) : r.Untouched := by
  obtain ⟨options, loaded, -, -, hready⟩ := ofCommandLine_eq_ready_iff.mp h
  obtain ⟨-, -, -, word, -, rfl⟩ := ofOptions_eq_ready_iff.mp hready
  exact ⟨rfl, rfl, rfl⟩

/-- A command line that asks for one of the files and for nothing else instead starts the run over
    that file alone. -/
theorem ofCommandLine_alone {path : Path} {single : List Text}
    (h : ofCommandLine words env envFile now = .ready r)
    (hread : Options.read single = .ok { r.options with files := [path] }) :
    ofCommandLine single env envFile now = .ready (r.alone path) := by
  obtain ⟨options, loaded, -, hload, hready⟩ := ofCommandLine_eq_ready_iff.mp h
  obtain ⟨harch, hword, hlog, word, hcheck, rfl⟩ := ofOptions_eq_ready_iff.mp hready
  refine ofCommandLine_eq_ready_iff.mpr ⟨_, loaded, hread, hload, ?_⟩
  exact ofOptions_eq_ready_iff.mpr ⟨harch, hword, hlog, word, hcheck, rfl⟩

end Start

end Command

end GoLayout
