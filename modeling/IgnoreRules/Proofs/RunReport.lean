/-
# Reports of runs

A run whose settings can be loaded and whose log file can be opened always reports on its paths.
What it reports depends on the pattern, on the paths, and on whether flags are asked for.

* `Session.exists_setUp_of_valid` : the loggers can be set up;
* `Session.exists_log`, `Session.exists_report` : what can be shown can be logged;
* `test_of_valid` : what a test shows;
* `run_reports_every_path` : what a whole run shows.
-/
import IgnoreRules.CommandLine.Run
import IgnoreRules.Proofs.ArgumentReading
import IgnoreRules.Proofs.LoggerSinks
import IgnoreRules.Proofs.PlainValues
import IgnoreRules.Proofs.ValidSettings

namespace IgnoreRules.CommandLine

variable {u : Surroundings} {settings : Settings} {s : Session} {a : Arguments}

/-! ## Setting up loggers -/

/-- The log file that the settings name, if any, can be opened. -/
def CanLog (settings : Settings) (d : Directory) : Prop :=
  ∀ file, logFile? settings = some file → d.openable (d.fullName file) (d.fullPath file) = .ok ()

/-- Where no path is touched, the log file can still be opened. -/
theorem CanLog.same {d d' : Directory} (hlog : CanLog settings d)
    (h : Directory.Same (fun _ => False) d d') : CanLog settings d' := by
  intro file hfile
  have hbase := h.base not_false
  rw [Directory.fullName_of_base hbase, Directory.fullPath_of_base hbase,
    Directory.openable_same h]
  exact hlog file hfile

namespace Session

/-- The session in which a logger has another level, and its handlers for files are gone. -/
def withoutFiles (s : Session) (name : String) (n : Int) : Session :=
  dropFiles { s with registry := s.registry.withLevel name n } name

theorem registry_withoutFiles (s : Session) (name : String) (n : Int) :
    (s.withoutFiles name n).registry = s.registry.withoutFiles name n := rfl

/-- Closing files leaves all of them where they are. -/
theorem kept_withoutFiles (b? : Option (List String)) (s : Session) (name : String) (n : Int) :
    Directory.KeptBy b? s.directory (s.withoutFiles name n).directory ∧
      (s.withoutFiles name n).directory.base = s.directory.base :=
  Directory.closeAll_keptBy b? s.directory _

/-- A log file can be opened or not, whatever handlers are gone. -/
theorem openable_withoutFiles (s : Session) (name : String) (n : Int) (file : String)
    (path : List String) :
    (s.withoutFiles name n).directory.openable file path = s.directory.openable file path :=
  Directory.openable_same (kept_withoutFiles none s name n).1.of_none file path

/-- Setting up one logger with a level that can be set. -/
theorem setUpLogger_of_rank {n : Int} (hlevel : (levelOf settings).rank? = .ok n) (name : String)
    (s : Session) :
    setUpLogger settings name s =
      let t := s.withoutFiles name n
      match logFile? settings with
      | none => (none, t)
      | some file =>
          match t.addFile name file with
          | .error o => (some (problem o.name (o.message (t.directory.fullName file))), t)
          | .ok w => (none, w) := by
  rw [setUpLogger, Log.Registry.setLevel, hlevel]
  rfl

/-- What a handler for a file does to a session. -/
theorem addFile_eq {name file : String} {n : Nat} {d : Directory}
    (hopen : s.directory.openToAppend file = .ok (n, d)) :
    s.addFile name file
      = .ok ⟨d, s.registry.attachNew name (.file (s.directory.fullPath file) n)⟩ := by
  rw [addFile, hopen]
  dsimp only
  rw [Directory.fullPath_of_base (Directory.base_openToAppend hopen)]
  rfl

/-- Setting up one logger leaves the log file open to the next one. -/
theorem exists_setUpLogger {n : Int} (hlevel : (levelOf settings).rank? = .ok n) (name : String)
    (hlog : CanLog settings s.directory) :
    ∃ t, setUpLogger settings name s = (none, t) ∧ CanLog settings t.directory ∧
      t.registry.frames = s.registry.frames := by
  have hclosed : CanLog settings (s.withoutFiles name n).directory :=
    hlog.same (kept_withoutFiles none s name n).1.of_none
  rw [setUpLogger_of_rank hlevel]
  dsimp only
  cases hfile : logFile? settings with
  | none => exact ⟨_, rfl, hclosed, rfl⟩
  | some file =>
    obtain ⟨stream, d, hopen⟩ := Directory.exists_openToAppend (hclosed file hfile)
    dsimp only
    rw [addFile_eq hopen]
    refine ⟨_, rfl, ?_, Log.Registry.frames_attachNew _ _ _⟩
    intro other hother
    obtain rfl := Option.some.inj (hfile.symm.trans hother)
    exact Directory.openable_again hopen

/-- **The loggers can be set up.** -/
theorem exists_setUp_of_valid (hvalid : settings.Valid) (hlog : CanLog settings s.directory) :
    ∃ t, s.setUp settings = (none, t) ∧ t.registry.frames = s.registry.frames := by
  obtain ⟨n, hlevel⟩ := exists_rank_of_valid hvalid
  obtain ⟨t, ht, hlog, hfirst⟩ := exists_setUpLogger
    (s := (s.withLogger runLogger).withLogger rulesLogger) hlevel runLogger hlog
  -- the second logger opens the same file, on what the first one left behind
  obtain ⟨w, hw, -, hsecond⟩ := exists_setUpLogger hlevel rulesLogger hlog
  refine ⟨w, by rw [setUp, ht]; exact hw, ?_⟩
  rw [hsecond, hfirst, withLogger, Log.Registry.frames_sharedLogger, withLogger,
    Log.Registry.frames_sharedLogger]

/-! ## Logging -/

/-- An entry that can be shown can be logged, and changes files at most. -/
theorem exists_log (hframes : s.registry.HasShowableFrames) {e : Log.Entry}
    (he : (Value.mapping e.context).isShowable = true) (u : Surroundings) (name : String) :
    ∃ text d, s.log u name e = some (text, { s with directory := d }) := by
  have hshowable : (s.registry.entryRecord name e).isShowable = true :=
    s.registry.isShowable_context hframes he
  rw [log, Log.Registry.log, hshowable, Bool.not_true, Bool.and_false]
  exact ⟨_, _, rfl⟩

/-- A problem can be reported, and this changes files at most. -/
theorem exists_report (hframes : s.registry.HasShowableFrames) (u : Surroundings)
    (name message : String) (p : Log.Problem) :
    ∃ text d, s.report u name message p = some (text, { s with directory := d }) := by
  rw [report, Log.Registry.report, if_pos (Log.Registry.isShowable_problemRecord hframes _ _ _)]
  exact ⟨_, _, rfl⟩

end Session

/-! ## Testing paths -/

/-- The pattern and the number of paths can be shown. -/
theorem isShowable_testEntry (r : Rule) (paths : List String) :
    (Value.mapping (testEntry r paths).context).isShowable = true := by
  have hcount : (Scalar.int (min paths.length maxLength : Nat)).isShowable = true :=
    Number.isShowable_of_le (Nat.min_le_right _ _) (by decide +kernel)
  simp only [testEntry, Value.isShowable, Value.showableEntries, Scalar.isShowable] at hcount ⊢
  rw [hcount]
  rfl

/-- A problem that nobody expected is a failure, and nothing is printed. -/
theorem abandon_shows (hframes : s.registry.HasShowableFrames) (u : Surroundings)
    (p : Log.Problem) (errors : String) :
    (abandon u p errors s).1.status = .failure ∧ (abandon u p errors s).1.output = "" := by
  have hsame : (s.withLogger runLogger).registry.HasShowableFrames := by
    rw [Log.Registry.HasShowableFrames, Session.withLogger, Log.Registry.frames_sharedLogger]
    exact hframes
  obtain ⟨text, d, hreport⟩ := Session.exists_report hsame u runLogger "Unexpected error" p
  rw [abandon, hreport]
  exact ⟨rfl, rfl⟩

/-- **What a test shows** with valid settings: the lines of the report, and whether a path
matched. -/
theorem test_of_valid (hvalid : settings.Valid) (hframes : s.registry.HasShowableFrames)
    (u : Surroundings) (a : Arguments) :
    let r := Rule.compile a.pattern.toList
    (test u settings a s).1.status
        = (if Report.anyMatched r a.paths then .success else .noMatch) ∧
      (test u settings a s).1.output = unlines (Report.lines r a.paths a.flags) := by
  obtain ⟨n, pos, enabled, hk⟩ := Compiler.exists_ofSettings_of_valid hvalid
  obtain ⟨first, d, hfirst⟩ := Session.exists_log hframes
    (Compiler.isShowable_entry ⟨.empty (.atMost n pos) enabled, 0⟩ a.pattern.toList) u rulesLogger
  obtain ⟨more, d', hsecond⟩ := Session.exists_log (s := { s with directory := d }) hframes
    (isShowable_testEntry (Rule.compile a.pattern.toList) a.paths) u runLogger
  rw [test, hk]
  dsimp only
  rw [((Compiler.Faithful.ofSettings hk).compile a.pattern.toList).1, hfirst]
  dsimp only
  rw [hsecond]
  exact ⟨rfl, rfl⟩

/-! ## Whole runs -/

/-- **A run reports on every path.**  The command line makes any choices, with files that are not
taken for switches, and goes on with a pattern and at least one path, none of them with a dash in
front.  If the settings can be loaded and the log file they name can be opened, the run prints one
line for every path, in the order of the paths, and exits with zero if a path matched and with one
otherwise.  Nothing but the pattern, the paths and the choice of flags matters for this.  Frames that
others have left open do not stand in the way, unless they hold what cannot be shown. -/
theorem run_reports_every_path {choices : List Choice} {pattern : String} {paths : List String}
    (hfiles : ∀ file, .config file ∈ choices → Word.IsOperand file)
    (hoperands : ∀ w ∈ pattern :: paths, w.toList.head? ≠ some '-') (hne : paths ≠ [])
    (hload : settingsOf u (chosen choices pattern paths) s.directory = .ok settings)
    (hlog : CanLog settings s.directory) (hframes : s.registry.HasShowableFrames) :
    let r := Rule.compile pattern.toList
    let outcome := (run u (commandLine choices pattern paths) s).1
    outcome.output = unlines (paths.map fun path =>
        Report.line r path (r.accepts path.toList) (.flags ∈ choices)) ∧
      outcome.status.code = if ∃ path ∈ paths, r.accepts path.toList then 0 else 1 := by
  intro r outcome
  have hparse := parse_commandLine hfiles
    (fun w hw => Word.isOperand_of_head (hoperands w hw)) hne
  have hvalid := valid_of_settingsOf hload
  obtain ⟨t, ht, hsame⟩ := Session.exists_setUp_of_valid hvalid hlog
  have hshowable : t.registry.HasShowableFrames := by
    rw [Log.Registry.HasShowableFrames, hsame]
    exact hframes
  have hrun : outcome = (test u settings (chosen choices pattern paths) t).1 := by
    show (run u (commandLine choices pattern paths) s).1 = _
    rw [run, hparse]
    dsimp only
    rw [hload]
    dsimp only
    rw [ht]
  obtain ⟨hstatus, houtput⟩ := test_of_valid hvalid hshowable u (chosen choices pattern paths)
  rw [hrun, houtput, hstatus]
  refine ⟨rfl, ?_⟩
  show (if Report.anyMatched r paths then Status.success else .noMatch).code = _
  have hmatched : Report.anyMatched r paths = true ↔ ∃ path ∈ paths, r.accepts path.toList :=
    List.any_eq_true
  by_cases h : ∃ path ∈ paths, r.accepts path.toList
  · rw [if_pos h, if_pos (hmatched.2 h)]
    rfl
  · rw [if_neg h, if_neg (mt hmatched.1 h)]
    rfl

/-- A run that logs everything to a file that the environment names, and keeps a single rule as a
file with settings says. -/
theorem run_reports_every_path_with_log_file :
    let u : Surroundings :=
      ⟨[("IGNOREMATCH_LOGGING__FILE", "run.log")], ⟨"now", "trace", "lost"⟩, Document.plain⟩
    let content := "\x7b\"ignorematch\": \x7b\"cache\": \x7b\"max_entries\": 1\x7d\x7d\x7d"
    let d : Directory :=
      { base := ["home"], nodes := [(["home", "one.json"], .file content.toUTF8)] }
    let choices := [.debug, .config "one.json", .flags]
    let paths := ["a.log", "b/a.log", "a.log"]
    let outcome := (run u (commandLine choices "*.log" paths) ⟨d, .empty⟩).1
    outcome.output = unlines [
        "match     a.log  is_dir=False is_negate=False",
        "no-match  b/a.log  is_dir=False is_negate=False",
        "match     a.log  is_dir=False is_negate=False"] ∧
      outcome.status.code = 0 := by
  intro u content d choices paths outcome
  have hfile : (settingsOf u (chosen choices "*.log" paths) d).toOption.map logFile?
      = some (some "run.log") := by
    decide +kernel
  have hopen : d.openable (d.fullName "run.log") (d.fullPath "run.log") = .ok () := by
    decide +kernel
  cases hload : settingsOf u (chosen choices "*.log" paths) d with
  | error e =>
    rw [hload] at hfile
    cases hfile
  | ok settings =>
    rw [hload] at hfile
    have hlog : CanLog settings d := by
      intro file hf
      obtain rfl := Option.some.inj (hf.symm.trans (Option.some.inj hfile))
      exact hopen
    have hfiles : ∀ file, .config file ∈ choices → Word.IsOperand file := by
      intro file hmem
      obtain rfl : file = "one.json" := by simpa [choices] using hmem
      exact Word.isOperand_of_head (by decide)
    have hframes : Log.Registry.empty.HasShowableFrames := by
      intro frame hframe
      cases hframe
    have houtcome : outcome = (run u (commandLine choices "*.log" paths) ⟨d, .empty⟩).1 := rfl
    obtain ⟨houtput, hcode⟩ := run_reports_every_path (s := ⟨d, .empty⟩) hfiles (by decide)
      (by decide) hload hlog hframes
    rw [houtcome]
    exact ⟨houtput.trans (by decide +kernel), hcode.trans (by decide +kernel)⟩

end IgnoreRules.CommandLine
