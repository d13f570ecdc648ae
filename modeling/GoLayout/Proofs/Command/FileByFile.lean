import GoLayout.Proofs.Command.Finish
import GoLayout.Proofs.Command.Start
import GoLayout.Proofs.Layout.DigitLimit

/-! # A run works on its files one by one

    A file that can be read gives one entry of the report, a file that fails is noted and left
    out, and neither has an effect on another file.  Only an emptied cursor ends a run before
    its last file (`run_serves_iff`).  The route:

    * a run starts without entries and without failures, and of its options the files decide
      nothing about the start (`Start.ofCommandLine_alone`);
    * `Run.file` adds an entry or a failure and leaves everything else that the report is made
      of as it is (`file_unreadable`, `file_readable`), or it ends the run (`file_emptied`);
    * `Run.Passed` is what holds of a run behind some of its files.  One file keeps it
      (`Passed.file`) and so do all of them (`Passed.files`), and at the end it gives the report
      and the exit status (`Passed.output`, `Passed.status_eq_one_iff`,
      `Passed.status_eq_two_iff`). -/

namespace GoLayout

namespace FileTree

variable {tree : FileTree} {path : Path}

/-- The file at a path can be read. -/
def Reads (tree : FileTree) (path : Path) : Prop := ∃ source, tree.read path = .ok source

/-- The file at a path cannot be read. -/
def Fails (tree : FileTree) (path : Path) : Prop := ∃ f, tree.read path = .error f

/-- A file either reads or fails. -/
theorem not_reads_iff : ¬ tree.Reads path ↔ tree.Fails path := by
  rw [Reads, Fails]
  cases tree.read path with
  | ok source => simp
  | error f => simp

theorem not_fails_iff : ¬ tree.Fails path ↔ tree.Reads path := by
  rw [← not_reads_iff, not_not]

end FileTree

namespace Command

theorem filterMap_single {α β : Type} (f : α → Option β) (a : α) :
    [a].filterMap f = (f a).toList := by
  rw [List.filterMap_cons]
  cases f a with
  | none => rfl
  | some b => rfl

namespace Run

/-! ## One file -/

variable {start r : Run} {t : FileTree} {done : List Path} (path : Path)

theorem file_ended (h : r.fatal.isSome = true) (outcome : FileOutcome) : r.file path outcome = r :=
  if_pos h

theorem file_going (h : r.fatal = none) (outcome : FileOutcome) :
    r.file path outcome = (r.beginFile path).endFile path r.journal.now outcome := by
  rw [file, h]
  rfl

/-- A failing file is counted and reported, and nothing else of the run changes. -/
theorem fail_eq (r : Run) (path : Path) (error : Text) :
    r.fail path error =
      { r with
        journal := (r.fail path error).journal
        failures := r.failures ++ [(path, error)] } := rfl

/-- An outcome that is a fault of the file is a failure of that file, whatever its wording. -/
theorem file_failed {f : ReadFault} (hgoing : r.fatal = none) (hf : f.isFileFault = true) :
    ∃ journal index, r.file path (.error f) = { r with journal, index }.fail path f.message := by
  rw [file_going path hgoing, endFile, if_pos hf]
  exact ⟨_, r.index + 1, rfl⟩

/-- A file that fails by itself is noted. -/
theorem file_unreadable {f : ReadFault} (hgoing : r.fatal = none) (hf : f.isFileFault = true) :
    ∃ journal index, r.file path (.error f) =
      { r with journal, index, failures := r.failures ++ [(path, f.message)] } := by
  obtain ⟨_, index, hfile⟩ := file_failed path hgoing hf
  exact ⟨_, index, hfile.trans (fail_eq _ path f.message)⟩

/-- Where the cursor was not emptied, what is selected of the file is put behind the reports of the
    files before. -/
theorem select_placed (hcursor : r.options.isEmptied .cursor = false) (analyses : List Analysis) :
    ∃ journal, r.select path analyses =
      { r with journal, reports := r.reports ++
        [⟨path, r.options.select r.config.warnings analyses⟩] } := by
  rw [select, if_neg (ne_true_of_eq_false hcursor)]
  cases r.options.cursor with
  | none => exact ⟨r.journal, rfl⟩
  | some c =>
      dsimp only
      split
      · exact ⟨_, rfl⟩
      · exact ⟨r.journal, rfl⟩

theorem select_emptied (hcursor : r.options.isEmptied .cursor = true) (analyses : List Analysis) :
    r.select path analyses = r.abort (Breakdown.emptied .cursor).message :=
  if_pos hcursor

/-- A file with an analysis goes on to the selection of what is reported of it. -/
theorem file_analysed {p : Progressed} {analyses : List Analysis} (hgoing : r.fatal = none)
    (hresult : p.result = .ok analyses) :
    ∃ journal index, r.file path (.ok p) = { r with journal, index }.select path analyses := by
  rw [file_going path hgoing, endFile, hresult]
  exact ⟨_, r.index + 1, rfl⟩

/-- A file that was read and analysed is reported. -/
theorem file_readable {p : Progressed} {analyses : List Analysis} (hgoing : r.fatal = none)
    (hresult : p.result = .ok analyses) (hcursor : r.options.isEmptied .cursor = false) :
    ∃ journal index, r.file path (.ok p) =
      { r with journal, index, reports := r.reports ++
        [⟨path, r.options.select r.config.warnings analyses⟩] } := by
  obtain ⟨analysed, index, hfile⟩ := file_analysed path hgoing hresult
  obtain ⟨journal, hselect⟩ :=
    select_placed (r := { r with journal := analysed, index }) path hcursor analyses
  exact ⟨journal, index, hfile.trans hselect⟩

/-- With an emptied cursor the first file that was read and analysed ends the run. -/
theorem file_emptied {p : Progressed} {analyses : List Analysis} (hgoing : r.fatal = none)
    (hresult : p.result = .ok analyses) (hcursor : r.options.isEmptied .cursor = true) :
    (r.file path (.ok p)).fatal.isSome = true := by
  obtain ⟨analysed, index, hfile⟩ := file_analysed path hgoing hresult
  rw [hfile, select_emptied (r := { r with journal := analysed, index }) path hcursor]
  rfl

/-! ## All files -/

variable {path}

/-- A run can pass a file with this content: the sizes of its structs have few enough digits, or
    the file cannot be read for a reason that is its own. -/
def Passes (r : Run) : Except ReadFault Text → Prop
  | .ok source => ∀ d ∈ Document.declarations r.config.allNames source,
      (d.packed r.word).totalSize < 10 ^ Decimal.digitLimit
  | .error f => f.isFileFault = true

/-- The entry of a file in the report, if the file can be read: the structs that are asked for from
    among all that the file declares. -/
def entryOf? (r : Run) (t : FileTree) (path : Path) : Option FileReport :=
  match t.read path with
  | .ok source => some ⟨path, r.options.select r.config.warnings
      ((Document.declarations r.config.allNames source).map (Analysis.ofPacked r.word))⟩
  | .error _ => none

/-- What is noted of a file that cannot be read. -/
def failure? (t : FileTree) (path : Path) : Option (Path × Text) :=
  match t.read path with
  | .ok _ => none
  | .error f => some (path, f.message)

/-- What comes out of some files of a tree. -/
def outcomes (r : Run) (t : FileTree) (files : List Path) : List (Path × FileOutcome) :=
  files.map fun path => (path, .ofContent r.word r.config.allNames (t.read path))

/-- A run that came through some files: it asks for what it asked for at the start, it reports those
    of the files that can be read, and it noted the others. -/
structure Passed (start : Run) (t : FileTree) (done : List Path) (r : Run) : Prop where
  options : r.options = start.options
  config : r.config = start.config
  reports : r.reports = done.filterMap (start.entryOf? t)
  failures : r.failures = done.filterMap (failure? t)
  going : r.fatal = none

/-- The analysis of a file that passes succeeds, and analyses the declarations in it. -/
theorem result_of_passes {source : Text} (h : start.Passes (.ok source)) :
    (Progressed.ofSource start.word start.config.allNames source).result =
      .ok ((Document.declarations start.config.allNames source).map
        (Analysis.ofPacked start.word)) :=
  Progressed.result_of_writable fun d hd => (d.totalSize_writable_iff start.word).mpr (h d hd)

/-- One more file keeps the account, if what it adds is what is expected of it. -/
theorem Passed.snoc (h : Passed start t done r) {next : Run} (hoptions : next.options = r.options)
    (hconfig : next.config = r.config)
    (hreports : next.reports = r.reports ++ (start.entryOf? t path).toList)
    (hfailures : next.failures = r.failures ++ (failure? t path).toList)
    (hgoing : next.fatal = none) : Passed start t (done ++ [path]) next := by
  refine ⟨hoptions.trans h.options, hconfig.trans h.config, ?_, ?_, hgoing⟩
  · rw [hreports, h.reports, List.filterMap_append, filterMap_single]
  · rw [hfailures, h.failures, List.filterMap_append, filterMap_single]

/-- The step: a run passes one more file, unless the cursor is emptied and the file can be read. -/
theorem Passed.file (h : Passed start t done r) (hpasses : start.Passes (t.read path))
    (hcursor : start.options.isEmptied .cursor = true → t.Fails path) :
    Passed start t (done ++ [path])
      (r.file path (.ofContent start.word start.config.allNames (t.read path))) := by
  cases hread : t.read path with
  | error f =>
      rw [hread] at hpasses
      obtain ⟨journal, index, hfile⟩ := file_unreadable path h.going hpasses
      rw [show FileOutcome.ofContent _ _ (.error f) = .error f from rfl, hfile]
      refine h.snoc rfl rfl ?_ ?_ h.going
      · simp [entryOf?, hread]
      · simp [failure?, hread]
  | ok source =>
      -- an emptied cursor is fine only as long as no file can be read
      have hplaced : r.options.isEmptied .cursor = false := by
        rw [h.options, ← Bool.not_eq_true]
        exact fun hemptied => FileTree.not_fails_iff.mpr ⟨source, hread⟩ (hcursor hemptied)
      rw [hread] at hpasses
      obtain ⟨journal, index, hfile⟩ :=
        file_readable path h.going (result_of_passes hpasses) hplaced
      rw [show FileOutcome.ofContent _ _ (.ok source) = .ok _ from rfl, hfile]
      refine h.snoc rfl rfl ?_ ?_ h.going
      · simp [entryOf?, hread, h.options, h.config]
      · simp [failure?, hread]

/-- The run: it passes all files, unless the cursor is emptied and one of them can be read. -/
theorem Passed.files :
    ∀ (files done : List Path) (r : Run), Passed start t done r →
      (∀ path ∈ files, start.Passes (t.read path)) →
      (start.options.isEmptied .cursor = true → ∀ path ∈ files, t.Fails path) →
      Passed start t (done ++ files) (r.files (start.outcomes t files)) := by
  intro files
  induction files with
  | nil =>
      intro done r h _ _
      rw [List.append_nil]
      exact h
  | cons path files ih =>
      intro done r h hpasses hcursor
      have hstep := h.file (hpasses path List.mem_cons_self)
        fun hemptied => hcursor hemptied path List.mem_cons_self
      rw [List.append_cons]
      exact ih _ _ hstep (fun p hp => hpasses p (List.mem_cons_of_mem _ hp))
        fun hemptied p hp => hcursor hemptied p (List.mem_cons_of_mem _ hp)

/-- Behind a breakdown nothing changes any more. -/
theorem files_ended (h : r.fatal.isSome = true) :
    ∀ outcomes : List (Path × FileOutcome), r.files outcomes = r := by
  intro outcomes
  induction outcomes with
  | nil => rfl
  | cons o outcomes ih =>
      show (r.file o.1 o.2).files outcomes = r
      rw [file_ended o.1 h, ih]

/-- With an emptied cursor a file that can be read ends the run, whatever stands around it. -/
theorem Passed.files_emptied (hcursor : start.options.isEmptied .cursor = true) :
    ∀ (files done : List Path) (r : Run), Passed start t done r →
      (∀ path ∈ files, start.Passes (t.read path)) →
      (∃ path ∈ files, t.Reads path) →
      (r.files (start.outcomes t files)).fatal.isSome = true := by
  intro files
  induction files with
  | nil =>
      rintro done r - - ⟨path, hpath, -⟩
      exact nomatch hpath
  | cons path files ih =>
      intro done r h hpasses hreadable
      have hhere := hpasses path List.mem_cons_self
      show ((r.file path (.ofContent _ _ (t.read path))).files _).fatal.isSome = true
      cases hread : t.read path with
      | ok source =>
          rw [hread] at hhere
          have hended := file_emptied path h.going (result_of_passes hhere)
            (h.options ▸ hcursor)
          rw [show FileOutcome.ofContent _ _ (.ok source) = .ok _ from rfl, files_ended hended]
          exact hended
      | error f =>
          have hstep := h.file hhere fun _ => ⟨f, hread⟩
          rw [hread] at hstep
          refine ih _ _ hstep (fun p hp => hpasses p (List.mem_cons_of_mem _ hp)) ?_
          -- the file that can be read stands further behind
          obtain ⟨p, hp, hreads⟩ := hreadable
          rcases List.mem_cons.mp hp with rfl | hp
          · exact absurd hreads (FileTree.not_reads_iff.mpr ⟨f, hread⟩)
          · exact ⟨p, hp, hreads⟩

/-! ## The report and the exit status -/

/-- No failure is counted exactly if every file could be read. -/
theorem failures_eq_nil_iff {files : List Path} :
    files.filterMap (failure? t) = [] ↔ ∀ path ∈ files, t.Reads path := by
  rw [List.filterMap_eq_nil_iff]
  refine forall₂_congr fun path _ => ?_
  rw [failure?, FileTree.Reads]
  cases t.read path with
  | ok source => simp
  | error f => simp

theorem failures_ne_nil_iff {files : List Path} :
    files.filterMap (failure? t) ≠ [] ↔ ∃ path ∈ files, t.Fails path := by
  rw [ne_eq, failures_eq_nil_iff]
  push Not
  exact exists_congr fun path => and_congr_right fun _ => FileTree.not_reads_iff

/-- What is printed at the end depends on the files that were read alone. -/
theorem Passed.output (h : Passed start t done r) :
    r.output = start.reportOf (done.filterMap (start.entryOf? t)) := by
  rw [reportOf, Run.output, h.options, h.config, h.reports]
  rfl

/-- What a run owes its files, in the tree that they are read from: an entry for each file that can
    be read, in the order of the command line and the same as if the file stood there alone, and the
    exit status that says whether a file failed and, where that is asked for, whether a struct of
    the report would shrink. -/
structure Serves (tree : FileTree) (env : Environment) (stamp : Text) (r : Run) (t : FileTree)
    (outcome : Outcome) : Prop where
  entries : outcome.output = r.reportOf (r.options.files.filterMap (r.entryOf? t))
  alone : ∀ path ∈ r.options.files, ∀ words,
    Options.read words = .ok { r.options with files := [path] } →
      ∃ single, run tree env words stamp = .ok (single, t) ∧
        single.output = r.reportOf (r.entryOf? t path).toList
  failed : outcome.status = 1 ↔ ∃ path ∈ r.options.files, t.Fails path
  shrinks : outcome.status = 2 ↔
    (∀ path ∈ r.options.files, t.Reads path) ∧
      r.options.failOnOptimizable = true ∧ r.config.warnings = true ∧
      ∃ entry ∈ r.options.files.filterMap (r.entryOf? t), ∃ a ∈ entry.analyses,
        a.optimality.isOptimizable = true
  otherwise : outcome.status = 0 ∨ outcome.status = 1 ∨ outcome.status = 2

/-- A run that writes nothing does not serve a file that can be read. -/
theorem not_serves_of_output_nil {tree : FileTree} {env : Environment} {stamp : Text}
    {outcome : Outcome} (h : outcome.output = [])
    (hreadable : ∃ path ∈ r.options.files, t.Reads path) :
    ¬ r.Serves tree env stamp t outcome := by
  intro hserves
  obtain ⟨path, hpath, source, hsource⟩ := hreadable
  have hentries := hserves.entries
  rw [h] at hentries
  refine reportOf_ne_nil (fun hnil => ?_) hentries.symm
  have hnone := List.filterMap_eq_nil_iff.mp hnil path hpath
  rw [entryOf?, hsource] at hnone
  exact nomatch hnone

theorem passed_start (h : r.Untouched) (t : FileTree) (logFile : Option Path) :
    Passed r t [] (r.start logFile) :=
  ⟨rfl, rfl, h.reports, h.failures, h.fatal⟩

theorem Passed.status_eq_one_iff (h : Passed start t done r) :
    r.status = 1 ↔ ∃ path ∈ done, t.Fails path := by
  rw [Run.status_eq_one_iff, h.failures, failures_ne_nil_iff]

/-- The status is two exactly if no file failed, the status is asked for, warnings are on and a
    reported struct can be made smaller. -/
theorem Passed.status_eq_two_iff (h : Passed start t done r) :
    r.status = 2 ↔ (∀ path ∈ done, t.Reads path) ∧
      start.options.failOnOptimizable = true ∧ start.config.warnings = true ∧
      ∃ entry ∈ done.filterMap (start.entryOf? t), ∃ a ∈ entry.analyses,
        a.optimality.isOptimizable = true := by
  rw [Run.status_eq_two_iff, h.failures, h.options, h.config, h.reports, failures_eq_nil_iff]

end Run

/-! ## Whole runs -/

variable {tree t : FileTree} {env : Environment} {words : List Text} {r : Run} (stamp : Text)

section

variable
  (hstart : Start.ofCommandLine words env (EnvFile.text tree EnvFile.defaultPath) 0.0 = .ready r)
  (hlog : r.LogsInto tree t)
  (hpasses : ∀ path ∈ r.options.files, r.Passes (t.read path))

include hstart hlog in
/-- A run with a usable log directory comes to the end of its files. -/
theorem run_of_ready :
    ∃ logFile, run tree env words stamp =
      .ok (((r.start logFile).files (r.outcomes t r.options.files)).finish 0.0, t) := by
  rw [run, hstart]
  rw [Run.LogsInto] at hlog
  dsimp only
  -- a log file exists only where a directory for it is asked for
  cases hdirectory : r.config.logDirectory with
  | none =>
      rw [hdirectory] at hlog
      exact ⟨none, by rw [hlog]; rfl⟩
  | some directory =>
      rw [hdirectory] at hlog
      dsimp only at hlog ⊢
      rw [hlog]
      exact ⟨_, rfl⟩

include hstart hlog hpasses in
/-- A run passes all of its files, unless the cursor is emptied and one of them can be read. -/
theorem run_passed
    (hcursor : r.options.isEmptied .cursor = true → ∀ path ∈ r.options.files, t.Fails path) :
    ∃ last outcome, r.Passed t r.options.files last ∧ run tree env words stamp = .ok (outcome, t) ∧
      outcome.status = last.status ∧ outcome.output = last.output := by
  obtain ⟨logFile, hrun⟩ := run_of_ready stamp hstart hlog
  have hlast := Run.Passed.files r.options.files [] _
    (Run.passed_start (Start.untouched_of_ready hstart) t logFile) hpasses hcursor
  exact ⟨_, _, hlast, hrun, Run.finish_going hlast.going 0.0⟩

include hstart hlog hpasses in
/-- With an emptied cursor and a file that can be read a run reports nothing. -/
theorem run_ended (hcursor : r.options.isEmptied .cursor = true)
    (hreadable : ∃ path ∈ r.options.files, t.Reads path) :
    ∃ outcome, run tree env words stamp = .ok (outcome, t) ∧ outcome.status = 1 ∧
      outcome.output = [] := by
  obtain ⟨logFile, hrun⟩ := run_of_ready stamp hstart hlog
  have hended := Run.Passed.files_emptied hcursor r.options.files [] _
    (Run.passed_start (Start.untouched_of_ready hstart) t logFile) hpasses hreadable
  exact ⟨_, hrun, Run.finish_ended hended 0.0⟩

include hstart hlog in
/-- The run over one of the files alone reports the entry of that file. -/
theorem run_alone {path : Path} (hpath : r.Passes (t.read path))
    (hcursor : r.options.isEmptied .cursor = true → t.Fails path) {single : List Text}
    (hread : Options.read single = .ok { r.options with files := [path] }) :
    ∃ outcome, run tree env single stamp = .ok (outcome, t) ∧
      outcome.output = r.reportOf (r.entryOf? t path).toList := by
  obtain ⟨last, outcome, hlast, hrun, -, houtput⟩ :=
    run_passed stamp (Start.ofCommandLine_alone hstart hread)
      (r := r.alone path) hlog (List.forall_mem_singleton.mpr hpath)
      fun hemptied => List.forall_mem_singleton.mpr (hcursor hemptied)
  refine ⟨outcome, hrun, ?_⟩
  rw [houtput, hlast.output]
  -- over a single file the reported entries are the one of that file, if it has one
  show r.reportOf ([path].filterMap (r.entryOf? t)) = _
  rw [filterMap_single]

end

/-- A run over files that are text with sizes of few enough digits, or fail by themselves, comes to
    its end, and it serves its files exactly if its cursor does not stand emptied or none of them
    can be read. -/
theorem run_serves_iff
    (hstart : Start.ofCommandLine words env (EnvFile.text tree EnvFile.defaultPath) 0.0 = .ready r)
    (hlog : r.LogsInto tree t) (hpasses : ∀ path ∈ r.options.files, r.Passes (t.read path)) :
    ∃ outcome, run tree env words stamp = .ok (outcome, t) ∧
      (r.Serves tree env stamp t outcome ↔
        (r.options.isEmptied .cursor = true → ∀ path ∈ r.options.files, t.Fails path)) := by
  -- either no readable file meets the emptied cursor, and all files pass, or the first one that can
  -- be read ends the run
  by_cases hcursor : r.options.isEmptied .cursor = true → ∀ path ∈ r.options.files, t.Fails path
  · obtain ⟨last, outcome, hlast, hrun, hstatus, houtput⟩ :=
      run_passed stamp hstart hlog hpasses hcursor
    refine ⟨outcome, hrun, iff_of_true ?_ hcursor⟩
    refine ⟨houtput.trans hlast.output, ?_, ?_, ?_, ?_⟩
    · intro path hpath single hread
      exact run_alone stamp hstart hlog (hpasses path hpath)
        (fun hemptied => hcursor hemptied path hpath) hread
    · rw [hstatus]
      exact hlast.status_eq_one_iff
    · rw [hstatus]
      exact hlast.status_eq_two_iff
    · rw [hstatus]
      exact last.status_cases
  · obtain ⟨hemptied, hnotall⟩ := Classical.not_imp.mp hcursor
    have hreadable : ∃ path ∈ r.options.files, t.Reads path := by
      push Not at hnotall
      obtain ⟨path, hpath, hread⟩ := hnotall
      exact ⟨path, hpath, FileTree.not_fails_iff.mp hread⟩
    obtain ⟨outcome, hrun, -, houtput⟩ :=
      run_ended stamp hstart hlog hpasses hemptied hreadable
    exact ⟨outcome, hrun, iff_of_false (Run.not_serves_of_output_nil houtput hreadable) hcursor⟩

/-! ## A run over three files, and one with an emptied cursor -/

/-- The run that is started by options which say nothing about the configuration. -/
def plainRun (options : Options) : Run :=
  ⟨options, Config.default, .eight, Journal.start .fresh .command 0.0, 0.0, 0, [], [], none⟩

/-- A struct that would shrink. -/
def shrinkable : Text := ("type A struct \x7b a bool; b int64; c bool \x7d" : String).toList

/-- One file with a struct and one file that is no text. -/
def mixedTree : FileTree :=
  ⟨[(["a.go"], shrinkable.map fun c => c.toNat.toUInt8), (["c.go"], [0xff])], []⟩

/-- The options that ask for these two files, with one between them that is not there. -/
def mixedOptions : Options :=
  { Options.empty with
    files := [⟨[], ["c.go"]⟩, ⟨[], ["b.go"]⟩, ⟨[], ["a.go"]⟩], failOnOptimizable := true }

/-- The command line of these options. -/
def mixedWords : List Text := ["c.go", "b.go", "a.go", "--fail-on-optimizable"]

theorem run_serves_iff_mixed :
    Start.ofCommandLine mixedWords ⟨[]⟩ (EnvFile.text mixedTree EnvFile.defaultPath) 0.0 =
        .ready (plainRun mixedOptions) ∧
      (plainRun mixedOptions).LogsInto mixedTree mixedTree ∧
      (∀ path ∈ mixedOptions.files, (plainRun mixedOptions).Passes (mixedTree.read path)) ∧
      ∃ outcome, run mixedTree ⟨[]⟩ mixedWords [] = .ok (outcome, mixedTree) ∧
        (plainRun mixedOptions).Serves mixedTree ⟨[]⟩ [] mixedTree outcome ∧ outcome.status = 1 ∧
        Options.read ["a.go", "--fail-on-optimizable"] =
          .ok { mixedOptions with files := [⟨[], ["a.go"]⟩] } := by
  have hstart : Start.ofCommandLine mixedWords ⟨[]⟩ (EnvFile.text mixedTree EnvFile.defaultPath) 0.0 =
      .ready (plainRun mixedOptions) :=
    Start.ofCommandLine_of_no_envFile mixedOptions (by decide +kernel)
      (Start.ofOptions_eq_ready_iff.mpr ⟨rfl, rfl, rfl, .eight, rfl, rfl⟩)
  have hlog : (plainRun mixedOptions).LogsInto mixedTree mixedTree := rfl
  have hread : mixedTree.read ⟨[], ["a.go"]⟩ = .ok shrinkable := rfl
  have hsizes : ∀ d ∈ Document.declarations false shrinkable,
      Decimal.writable (d.packed .eight).totalSize = true := by decide +kernel
  have hpasses : ∀ path ∈ mixedOptions.files,
      (plainRun mixedOptions).Passes (mixedTree.read path) := by
    simp only [mixedOptions, List.forall_mem_cons]
    refine ⟨rfl, rfl, ?_, fun _ h => nomatch h⟩
    rw [hread]
    exact fun d hd => (d.totalSize_writable_iff .eight).mp (hsizes d hd)
  obtain ⟨outcome, hrun, hserves⟩ := run_serves_iff [] hstart hlog hpasses
  have hserved := hserves.mpr fun hemptied => nomatch hemptied
  refine ⟨hstart, hlog, hpasses, outcome, hrun, hserved, hserved.failed.mpr ?_, rfl⟩
  exact ⟨⟨[], ["b.go"]⟩, by decide +kernel, _, rfl⟩

/-- An empty file. -/
def emptyFileTree : FileTree := ⟨[(["a.go"], [])], []⟩

/-- The options that ask for the empty file, and where the cursor stands emptied. -/
def emptiedOptions : Options :=
  { Options.empty with files := [⟨[], ["a.go"]⟩], emptied := [.cursor] }

/-- The command line of these options. -/
def emptiedWords : List Text := ["a.go", "--at=--"]

/-- With an emptied cursor a run does not report a file that can be read, and the exit status says
    that a file failed. -/
theorem run_emptied_not_serves :
    Start.ofCommandLine emptiedWords ⟨[]⟩ (EnvFile.text emptyFileTree EnvFile.defaultPath) 0.0 =
        .ready (plainRun emptiedOptions) ∧
      (plainRun emptiedOptions).LogsInto emptyFileTree emptyFileTree ∧
      (∀ path ∈ emptiedOptions.files, (plainRun emptiedOptions).Passes (emptyFileTree.read path)) ∧
      (∀ path ∈ emptiedOptions.files, emptyFileTree.read path = .ok []) ∧
      ∃ outcome, run emptyFileTree ⟨[]⟩ emptiedWords [] = .ok (outcome, emptyFileTree) ∧
        outcome.status = 1 ∧ outcome.output = [] ∧
        ¬ (plainRun emptiedOptions).Serves emptyFileTree ⟨[]⟩ [] emptyFileTree outcome := by
  have hstart : Start.ofCommandLine emptiedWords ⟨[]⟩
      (EnvFile.text emptyFileTree EnvFile.defaultPath) 0.0 = .ready (plainRun emptiedOptions) :=
    Start.ofCommandLine_of_no_envFile emptiedOptions (by decide +kernel)
      (Start.ofOptions_eq_ready_iff.mpr ⟨rfl, rfl, rfl, .eight, rfl, rfl⟩)
  have hlog : (plainRun emptiedOptions).LogsInto emptyFileTree emptyFileTree := rfl
  have hread : ∀ path ∈ emptiedOptions.files, emptyFileTree.read path = .ok [] :=
    List.forall_mem_singleton.mpr rfl
  have hnone : Document.declarations (plainRun emptiedOptions).config.allNames [] = [] := by
    decide +kernel
  have hpasses : ∀ path ∈ emptiedOptions.files,
      (plainRun emptiedOptions).Passes (emptyFileTree.read path) := by
    intro path hpath
    rw [hread path hpath, Run.Passes, hnone]
    exact fun _ hd => nomatch hd
  have hreadable : ∃ path ∈ emptiedOptions.files, emptyFileTree.Reads path :=
    ⟨⟨[], ["a.go"]⟩, List.mem_singleton_self _, [], hread _ (List.mem_singleton_self _)⟩
  obtain ⟨outcome, hrun, hstatus, houtput⟩ :=
    run_ended [] hstart hlog hpasses rfl hreadable
  exact ⟨hstart, hlog, hpasses, hread, outcome, hrun, hstatus, houtput,
    Run.not_serves_of_output_nil houtput hreadable⟩

end Command

end GoLayout
