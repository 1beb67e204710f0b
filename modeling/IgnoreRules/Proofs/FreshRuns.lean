/-
# Earlier runs do not matter

What a run prints and how it ends does not depend on the runs before it, whatever loggers and log
files these left behind, as long as the run keeps away from these log files and their backups.

* `Invocation.isApart` : a run that keeps away from log files;
* `settingsOf_logged` : the same settings are loaded behind some logging;
* `answer_eq_of_logged` : a run gives the same answer behind some logging;
* `runs_do_not_influence_each_other` : every run of a sequence answers as it would alone.
-/
import IgnoreRules.Proofs.LoggedFiles
import IgnoreRules.Proofs.SessionHistory

namespace IgnoreRules.CommandLine

open Directory (IsStale Logged)

variable {c : Invocation} {s s' : Session} {settings : Settings} {a : Arguments}
  {d d' : Directory} {logs : List (List String)}

/-- What a run shows to whoever started it: how it ends, and what it prints. -/
def Outcome.answer (o : Outcome) : Nat × String := (o.status.code, o.output)

/-! ## Keeping away from log files -/

namespace Invocation

/-- The name of the file with settings, with the home directory in place of `~`. -/
def configName? (c : Invocation) (d : Directory) : Option String :=
  (c.test?.bind Arguments.config).bind fun file =>
    if file.isEmpty then none else (d.expand file).toOption.join

/-- The name of the log file in the settings. -/
def logName? (c : Invocation) (d : Directory) : Option String :=
  (c.settings? d).bind logFile?

/-- The file with settings is none of the log files, and neither it nor the log file of the run is
reached through a backup of one. -/
def isApart (c : Invocation) (logs : List (List String)) (d : Directory) : Bool :=
  ((c.configName? d).all fun name =>
    ((d.places name).all fun q => ¬IsStale logs q) && d.fullPath name ∉ logs) &&
  (c.logName? d).all fun name => [d.origin name, d.fullPath name].all fun q => ¬IsStale logs q

/-- What it means to keep away from log files, name by name. -/
theorem isApart_iff : c.isApart logs d = true ↔
    (∀ name, c.configName? d = some name →
      (∀ q ∈ d.places name, ¬IsStale logs q) ∧ d.fullPath name ∉ logs) ∧
    ∀ name, c.logName? d = some name →
      ¬IsStale logs (d.origin name) ∧ ¬IsStale logs (d.fullPath name) := by
  simp [isApart, Option.all_eq_true]

end Invocation

/-- **The same settings are loaded behind some logging**, by a run that keeps away from it. -/
theorem settingsOf_logged (h : Logged logs d d') (htest : c.test? = some a)
    (hconfig : ∀ name, c.configName? d' = some name →
      (∀ q ∈ d'.places name, ¬IsStale logs q) ∧ d'.fullPath name ∉ logs) :
    settingsOf c.surroundings a d' = settingsOf c.surroundings a d := by
  rw [settingsOf, settingsOf]
  cases hfile : a.config with
  | none => rfl
  | some file =>
    by_cases hempty : file.isEmpty = true
    · simp only [hempty, if_true]
      rfl
    · have hbytes : Settings.bytesOf d' file = Settings.bytesOf d file := by
        refine h.bytesOf file fun name hname => hconfig name ?_
        rw [Invocation.configName?, htest, Option.bind_some, hfile, Option.bind_some,
          if_neg hempty, hname]
        rfl
      simp only [hempty, Settings.loadFile, Settings.documentOf, hbytes]
      rfl

/-- The log file can be opened behind some logging if it could be opened before. -/
theorem canLog_logged (h : Logged logs d d')
    (hlog : ∀ name, logFile? settings = some name →
      ¬IsStale logs (d'.origin name) ∧ ¬IsStale logs (d'.fullPath name)) :
    CanLog settings d' ↔ CanLog settings d := by
  rw [CanLog, CanLog]
  refine forall_congr' fun name => imp_congr_right fun hname => ?_
  obtain ⟨horigin, hpath⟩ := hlog name hname
  have hsame := h.fullPath_eq horigin
  have hfull : d'.fullName name = d.fullName name := by
    rw [Directory.fullName, Directory.fullName, hsame]
  rw [h.openable_iff hpath, hsame, hfull]

/-! ## Answers -/

/-- A run that is given up fails and prints nothing. -/
theorem answer_abandon (hs : s.Orderly) (u : Surroundings) (p : Log.Problem) (errors : String) :
    (abandon u p errors s).1.answer = (2, "") := by
  obtain ⟨hstatus, houtput⟩ := abandon_shows hs.hasShowableFrames u p errors
  rw [Outcome.answer, hstatus, houtput]
  rfl

/-- A test gives the same answer whatever was logged before. -/
theorem answer_test (hvalid : settings.Valid) (hs : s.Orderly) (hs' : s'.Orderly)
    (u : Surroundings) (a : Arguments) :
    (test u settings a s').1.answer = (test u settings a s).1.answer := by
  obtain ⟨hstatus, houtput⟩ := test_of_valid hvalid hs.hasShowableFrames u a
  obtain ⟨hstatus', houtput'⟩ := test_of_valid hvalid hs'.hasShowableFrames u a
  rw [Outcome.answer, Outcome.answer, hstatus, hstatus', houtput, houtput']

/-- A run that has loaded its settings gives the same answer, whatever the loggers are, if the log
file can be opened or cannot be. -/
theorem answer_setUp (hvalid : settings.Valid) (hs : s.Orderly) (hs' : s'.Orderly)
    (hlog : CanLog settings s'.directory ↔ CanLog settings s.directory)
    (u : Surroundings) (a : Arguments) :
    (match s'.setUp settings with
      | (some p, t) => abandon u p "" t
      | (none, t) => test u settings a t).1.answer
    = (match s.setUp settings with
      | (some p, t) => abandon u p "" t
      | (none, t) => test u settings a t).1.answer := by
  obtain ⟨ht, -, -, -, -, hcan, -⟩ := Session.setUp_spec hvalid hs
  obtain ⟨ht', -, -, -, -, hcan', -⟩ := Session.setUp_spec hvalid hs'
  rw [hlog, ← hcan] at hcan'
  cases hset : s.setUp settings with
  | mk p? t =>
    cases hset' : s'.setUp settings with
    | mk p?' t' =>
      rw [hset] at ht hcan'
      rw [hset'] at ht' hcan'
      cases p? with
      | none =>
        -- both runs test the paths
        obtain rfl : p?' = none := hcan'.2 rfl
        exact answer_test hvalid ht ht' u a
      | some p =>
        cases p?' with
        | none => cases hcan'.1 rfl
        | some p' => exact (answer_abandon ht' u p' "").trans (answer_abandon ht u p "").symm

/-- **A run gives the same answer behind some logging**, whatever the loggers are, if it keeps away
from the log files. -/
theorem answer_eq_of_logged (hs : s.Orderly) (hs' : s'.Orderly)
    (h : Logged logs s.directory s'.directory) (hapart : c.isApart logs s'.directory = true) :
    (c.run s').1.answer = (c.run s).1.answer := by
  obtain ⟨hconfig, hlogName⟩ := Invocation.isApart_iff.1 hapart
  cases htest : c.test? with
  | none =>
    obtain ⟨o, ho⟩ := Invocation.run_of_no_test htest
    rw [ho, ho]
  | some a =>
    have hsettings := settingsOf_logged h htest hconfig
    rw [Invocation.run_of_test htest, Invocation.run_of_test htest, hsettings]
    cases hload : settingsOf c.surroundings a s.directory with
    | error e =>
      dsimp only
      cases e.code? with
      | none =>
        exact (answer_abandon hs' c.surroundings _ _).trans
          (answer_abandon hs c.surroundings _ _).symm
      | some n => rfl
    | ok settings =>
      refine answer_setUp (valid_of_settingsOf hload) hs hs' (canLog_logged h ?_) c.surroundings a
      intro name hname
      refine hlogName name ?_
      rw [Invocation.logName?, Invocation.settings?, htest, Option.bind_some, hsettings, hload]
      exact hname

/-! ## Sequences of runs -/

/-- What runs show that are made one after the other. -/
def outcomes (s : Session) : List Invocation → List Outcome
  | [] => []
  | c :: cs => (c.run s).1 :: outcomes (c.run s).2 cs

/-- Every run keeps away from the log files of earlier runs, where those are given that were logged
to before. -/
def areApart (s : Session) (logs : List (List String)) : List Invocation → Bool
  | [] => true
  | c :: cs =>
      c.isApart logs s.directory &&
        areApart (c.run s).2 (logs ++ (c.logPath? s.directory).toList) cs

/-- What holds between the runs of a sequence that began with a directory: the logger of the command
line has no log file but one of an earlier run, and nothing has changed but these. -/
structure Onward (d : Directory) (logs : List (List String)) (s : Session) : Prop where
  orderly : s.Orderly
  logged : Logged logs d s.directory
  mem : ∀ path stream, .file path stream ∈ s.registry.sinksOf runLogger → path ∈ logs

theorem Onward.refl (d : Directory) : Onward d [] ⟨d, .empty⟩ where
  orderly := .fresh d
  logged := .refl d
  mem _ _ hmem := by cases hmem

/-- **A run adds its log file to those of earlier runs.** -/
theorem Onward.run (h : Onward d logs s) (c : Invocation) :
    Onward d (logs ++ (c.logPath? s.directory).toList) (c.run s).2 := by
  obtain ⟨horderly, hsinks, path?, heffect, hpath⟩ := h.orderly.run c
  refine ⟨horderly, ?_, ?_⟩
  · have hpaths : path? = c.logPath? s.directory ∨
        c.logPath? s.directory = none ∧ ∀ path ∈ path?, path ∈ logs := by
      refine hpath.imp_right fun ⟨hbreaks, hold⟩ => ⟨?_, fun path hpath => ?_⟩
      · rw [Invocation.logPath?, (given_up_of_breaksDown hbreaks).1]
        rfl
      · obtain ⟨stream, hstream⟩ := hold path hpath
        exact h.mem path stream hstream
    cases path? with
    | none =>
      have hnone : c.logPath? s.directory = none := hpaths.elim Eq.symm And.left
      rw [hnone, Option.toList_none, List.append_nil]
      exact h.logged.of_same heffect.kept.of_none
    | some path =>
      obtain ⟨hplaced, hwritable⟩ := heffect.before path rfl
      obtain ⟨stream, hstream⟩ := heffect.mem path rfl
      obtain ⟨hne, hplaced', husable, -⟩ := horderly.ready path stream hstream
      refine h.logged.step (List.subset_append_left _ _) ?_ ?_ hne hwritable.file
        (heffect.kept.kept path rfl).same hplaced' husable
      · intro x hx
        rcases List.mem_append.1 hx with hx | hx
        · exact Or.inl hx
        · rcases hpaths with hsome | ⟨hnone, -⟩
          · rw [← hsome] at hx
            exact Or.inr ⟨List.mem_singleton.1 hx, hplaced, hwritable⟩
          · rw [hnone] at hx
            cases hx
      · rcases hpaths with hsome | ⟨-, hold⟩
        · rw [← hsome]
          exact List.mem_append_right _ (List.mem_singleton_self path)
        · exact List.mem_append_left _ (hold path rfl)
  · intro path stream hmem
    rcases hsinks path stream hmem with hpath | hold
    · exact List.mem_append_right _ (by rw [hpath]; exact List.mem_singleton_self path)
    · exact List.mem_append_left _ (h.mem path stream hold)

/-- **Runs do not influence each other.**  If every run of a sequence keeps away from the log files
of earlier runs and their backups, then it ends as it would in a fresh process, and prints the
same. -/
theorem runs_do_not_influence_each_other {d : Directory} {cs : List Invocation}
    (h : areApart ⟨d, .empty⟩ [] cs = true) :
    (outcomes ⟨d, .empty⟩ cs).map Outcome.answer
      = cs.map fun c => (c.run ⟨d, .empty⟩).1.answer := by
  have hfresh := Session.Orderly.fresh d
  suffices hall : ∀ (s : Session) (logs : List (List String)), Onward d logs s →
      areApart s logs cs = true →
      (outcomes s cs).map Outcome.answer = cs.map fun c => (c.run ⟨d, .empty⟩).1.answer from
    hall _ [] (.refl d) h
  clear h
  induction cs with
  | nil => exact fun _ _ _ _ => rfl
  | cons c cs ih =>
    intro s logs hs hapart
    obtain ⟨hfirst, hrest⟩ := Bool.and_eq_true_iff.1 hapart
    rw [outcomes, List.map_cons, List.map_cons,
      answer_eq_of_logged hfresh hs.orderly hs.logged hfirst, ih _ _ (hs.run c) hrest]

/-- Two files with settings, one of which names a log file that cannot be opened. -/
def mixedSettings : Directory where
  base := ["home"]
  nodes := [
    (["home", "one.json"],
      .file "\x7b\"ignorematch\": \x7b\"logging\": \x7b\"file\": \"run.log\"\x7d\x7d\x7d".toUTF8),
    (["home", "two.json"],
      .file "\x7b\"ignorematch\": \x7b\"logging\": \x7b\"file\": \"sub\"\x7d\x7d\x7d".toUTF8),
    (["home", "sub"], .directory)]

/-- A run with a log file, one that fails to open it, one that is not understood, and one without
any. -/
def mixedRuns : List Invocation :=
  [["-c", "one.json", "*.log", "a.log"], ["-c", "two.json", "a", "a"], ["a"],
    ["--debug", "a", "b"]].map fun args => ⟨plainSurroundings, args⟩

theorem runs_do_not_influence_each_other_of_mixed_runs :
    areApart ⟨mixedSettings, .empty⟩ [] mixedRuns = true ∧
      (outcomes ⟨mixedSettings, .empty⟩ mixedRuns).map Outcome.answer
        = [(0, "match     a.log\n"), (2, ""), (2, ""), (1, "no-match  b\n")] := by
  have hapart : areApart ⟨mixedSettings, .empty⟩ [] mixedRuns = true := by decide +kernel
  exact ⟨hapart, (runs_do_not_influence_each_other hapart).trans (by decide +kernel)⟩

/-! ## A backup that is moved -/

/-- No run reads its settings from a log file of earlier runs, where those are given that were logged
to before. -/
def readsNoLog (s : Session) (logs : List (List String)) : List Invocation → Bool
  | [] => true
  | c :: cs =>
      ((c.configName? s.directory).all fun name => s.directory.fullPath name ∉ logs) &&
        readsNoLog (c.run s).2 (logs ++ (c.logPath? s.directory).toList) cs

/-- A test at the level of information adds one text to the log file. -/
theorem exists_directory_test (hvalid : settings.Valid) (hs : s.Orderly) {path : List String}
    {stream : Nat} (hsinks : s.registry.sinksOf runLogger = sinksFor (some (path, stream)))
    (hlevel : (s.registry.channel runLogger).level ≤ Log.Severity.info.rank)
    (hlevel' : Log.Severity.debug.rank < (s.registry.channel rulesLogger).level)
    (u : Surroundings) : ∃ text, (test u settings a s).2.directory
      = (Directory.emit path stream text s.directory).1 := by
  obtain ⟨n, pos, enabled, hk⟩ := Compiler.exists_ofSettings_of_valid hvalid
  have hfirst : s.log u rulesLogger
      (Compiler.compile ⟨.empty (.atMost n pos) enabled, 0⟩ a.pattern.toList).2.1 = some ("", s) :=
    Session.log_of_lt (by rwa [Compiler.severity_entry]) u
  obtain ⟨shown, text, hsecond⟩ := Session.exists_log_emit hs.hasShowableFrames
    (isShowable_testEntry (Rule.compile a.pattern.toList) a.paths) hsinks hlevel u
  refine ⟨text, ?_⟩
  rw [test, hk]
  dsimp only
  rw [((Compiler.Faithful.ofSettings hk).compile a.pattern.toList).1, hfirst]
  dsimp only
  rw [hsecond]

/-- A log file that is full. -/
def fullLog : ByteArray := ⟨Array.replicate Directory.maxLogBytes 0⟩

theorem size_fullLog : fullLog.size = Directory.maxLogBytes := Array.size_replicate

/-- A directory with a full log file, settings that name this log file, and settings in the place of
its second backup. -/
def backedUp : Directory where
  base := ["home"]
  nodes := [
    (["home", "one.json"], .file
      ("\x7b\"ignorematch\": \x7b\"logging\": " ++
        "\x7b\"level\": \"INFO\", \"file\": \"run.log\"\x7d\x7d\x7d").toUTF8),
    (["home", "run.log"], .file fullLog),
    (["home", "run.log.2"], .file "\x7b\x7d".toUTF8)]

/-- What the run with the log file is asked for. -/
def fillingArguments : Arguments := ⟨"a", ["a"], some "one.json", false, false⟩

/-- A run that logs to the full file. -/
def fillingRun : Invocation := ⟨plainSurroundings, ["-c", "one.json", "a", "a"]⟩

/-- What the run with its settings in the place of a backup is asked for. -/
def backupArguments : Arguments := ⟨"a", ["a"], some "run.log.2", false, false⟩

/-- A run with its settings in the place of a backup. -/
def backupRun : Invocation := ⟨plainSurroundings, ["-c", "run.log.2", "a", "a"]⟩

/-- The settings of the run that logs to the full file. -/
def fillingSettings : Settings :=
  (settingsOf plainSurroundings fillingArguments backedUp).toOption.getD .initial

/-- The session in which this run has set up its loggers. -/
def filling : Session := (Session.setUp fillingSettings ⟨backedUp, .empty⟩).2

/-- The directory in which the full log file has made room. -/
def rolledOver : Directory := (Directory.rollOver ["home", "run.log"] 0 filling.directory).1

theorem settingsOf_filling :
    settingsOf plainSurroundings fillingArguments backedUp = .ok fillingSettings := by
  have hsome : (settingsOf plainSurroundings fillingArguments backedUp).toOption.isSome = true := by
    decide +kernel
  rw [fillingSettings]
  cases hload : settingsOf plainSurroundings fillingArguments backedUp with
  | ok settings => rfl
  | error e =>
    rw [hload] at hsome
    cases hsome

/-- The loggers write to the full file, and let nothing pass that is there for debugging. -/
theorem filling_facts :
    (Session.setUp fillingSettings ⟨backedUp, .empty⟩).1 = none ∧
      filling.registry.sinksOf runLogger = sinksFor (some (["home", "run.log"], 0)) ∧
      (filling.registry.channel runLogger).level = 20 ∧
      (filling.registry.channel rulesLogger).level = 20 ∧
      filling.directory.stream 0 = .under ["home", "run.log"] ∧
      (Directory.rollOver ["home", "run.log"] 0 filling.directory).2 = true := by
  decide +kernel

/-- The first run leaves its loggers in order when it sets them up. -/
theorem orderly_filling : filling.Orderly := by
  rw [filling]
  exact (Session.setUp_spec (valid_of_settingsOf settingsOf_filling) (.fresh backedUp)).1

/-- Whatever is logged first makes room in the full file. -/
theorem makeRoom_filling (text : String) :
    Directory.makeRoom ["home", "run.log"] 0 text filling.directory = (rolledOver, true) := by
  obtain ⟨-, -, -, -, hstream, hdone⟩ := filling_facts
  have hvalid := valid_of_settingsOf settingsOf_filling
  obtain ⟨-, -, hnodes, -⟩ := Session.setUp_spec hvalid (Session.Orderly.fresh backedUp)
  have hbefore : backedUp.node? ["home", "run.log"] = some (.file fullLog) := rfl
  have hfile := hnodes _ _ hbefore
  rw [← filling] at hfile
  have hfull := Directory.isFull_of_size hstream hfile (Nat.le_of_eq size_fullLog.symm) text
  have hseen : filling.directory.seen? ["home", "run.log"] ≠ some .directory := by
    intro hdir
    cases hfile.symm.trans (Directory.node?_of_seen? hdir)
  rw [Directory.makeRoom_of_full hseen hfull, rolledOver, ← hdone]

/-- What the run with the full log file shows and leaves behind. -/
theorem exists_directory_fillingRun :
    (fillingRun.run ⟨backedUp, .empty⟩).1.answer = (0, "match     a\n") ∧
      ∃ text, (fillingRun.run ⟨backedUp, .empty⟩).2.directory = rolledOver.append 0 text := by
  obtain ⟨hnone, hsinks, hlevel, hlevel', hstream, -⟩ := filling_facts
  have hsetUp : Session.setUp fillingSettings ⟨backedUp, .empty⟩ = (none, filling) := by
    rw [filling, ← hnone]
  have htest : fillingRun.test? = some fillingArguments := rfl
  have hload : settingsOf fillingRun.surroundings fillingArguments
      (Session.mk backedUp .empty).directory = .ok fillingSettings := settingsOf_filling
  have hrun : fillingRun.run ⟨backedUp, .empty⟩
      = test fillingRun.surroundings fillingSettings fillingArguments filling := by
    rw [Invocation.run_of_test htest, hload]
    dsimp only
    rw [hsetUp]
  have hvalid := valid_of_settingsOf settingsOf_filling
  obtain ⟨text, hemit⟩ := exists_directory_test hvalid orderly_filling hsinks
    (by rw [hlevel]; decide) (by rw [hlevel']; decide) fillingRun.surroundings
  obtain ⟨hstatus, houtput⟩ := test_of_valid hvalid orderly_filling.hasShowableFrames
    fillingRun.surroundings fillingArguments
  refine ⟨?_, text, ?_⟩
  · rw [hrun, Outcome.answer, hstatus, houtput]
    decide +kernel
  have hopen : filling.directory.stream 0 ≠ .closed := by
    rw [hstream]
    simp
  rw [hrun, hemit, Directory.emit_of_open hopen (makeRoom_filling text)]

/-- The second backup is gone when the log file has made room. -/
theorem rolledOver_facts :
    rolledOver.stream 0 = .under ["home", "run.log"] ∧
      rolledOver.barrier? (Directory.wayDown [] ["home", "run.log"]) = none ∧
      rolledOver.base = ["home"] ∧
      rolledOver.expand "run.log.2" = .ok (some "run.log.2") ∧
      rolledOver.places "run.log.2" = [["home"], ["home", "run.log.2"]] ∧
      rolledOver.place? "run.log.2" = .ok ["home", "run.log.2"] ∧
      rolledOver.node? ["home", "run.log.2"] = none := by
  decide +kernel

/-- Whatever is logged then, the second backup is looked for in its place, and cannot be read. -/
theorem bytesOf_rolledOver (text : String) :
    Settings.bytesOf (rolledOver.append 0 text) "run.log.2" = .error (.missing "run.log.2") ∧
      (rolledOver.append 0 text).expand "run.log.2" = .ok (some "run.log.2") ∧
      (rolledOver.append 0 text).fullPath "run.log.2" = ["home", "run.log.2"] := by
  obtain ⟨hstream, hplaced, hbase, hexpand, hplaces, hplace, hnode⟩ := rolledOver_facts
  have hsame := Directory.Placed.same_append hplaced hstream text
  have hout : ∀ q ∈ rolledOver.places "run.log.2", ¬["home", "run.log"] <+: q := by
    rw [hplaces]
    decide
  have hplace' := (hsame.place?_eq hout (by rw [hbase]; decide)).trans hplace
  have hnode' := (hsame.node ["home", "run.log.2"] (by decide)).trans hnode
  have hexpand' := (Directory.expand_of_homes hsame.homes _).trans hexpand
  refine ⟨?_, hexpand', (Directory.fullPath_of_place? hplace').symm⟩
  rw [Directory.bytesOf_of_ok hexpand' hplace', hnode']

/-- Behind the run with the full log file the other run fails. -/
theorem backupRun_of_rolledOver {t : Session} {text : String}
    (ht : t.directory = rolledOver.append 0 text) :
    ((backupRun.configName? t.directory).all fun name =>
        t.directory.fullPath name ∉ [["home", "run.log"]]) = true ∧
      (backupRun.run t).1.answer = (2, "") := by
  obtain ⟨hbytes, hexpand, hpath⟩ := bytesOf_rolledOver text
  rw [← ht] at hbytes hexpand hpath
  have htest : backupRun.test? = some backupArguments := rfl
  have hload : settingsOf backupRun.surroundings backupArguments t.directory
      = .error (.missing "run.log.2") :=
    Invocation.settingsOf_of_bytesOf rfl (by decide) rfl hbytes
  have hname : backupRun.configName? t.directory = some "run.log.2" := by
    show (if "run.log.2".isEmpty then none else (t.directory.expand "run.log.2").toOption.join) = _
    rw [hexpand]
    rfl
  refine ⟨?_, ?_⟩
  · rw [hname, Option.all_some, hpath]
    decide
  · rw [Invocation.run_of_test htest, hload]
    rfl

/-- **A backup that is moved is missed.**  No run of the two reads its settings from a log file of an
earlier one, and yet the second run fails, which would do in a fresh process: the first one has moved
its settings, which took the place of a backup. -/
theorem moved_backup_is_missed :
    readsNoLog ⟨backedUp, .empty⟩ [] [fillingRun, backupRun] = true ∧
      (outcomes ⟨backedUp, .empty⟩ [fillingRun, backupRun]).map Outcome.answer
        = [(0, "match     a\n"), (2, "")] ∧
      ([fillingRun, backupRun].map fun c => (c.run ⟨backedUp, .empty⟩).1.answer)
        = [(0, "match     a\n"), (0, "match     a\n")] := by
  obtain ⟨hfilling, text, hdirectory⟩ := exists_directory_fillingRun
  obtain ⟨hapart, hbackup⟩ := backupRun_of_rolledOver hdirectory
  have hfirst : ((fillingRun.configName? backedUp).all fun name =>
      backedUp.fullPath name ∉ ([] : List (List String))) = true := by
    decide +kernel
  have hlog : fillingRun.logPath? backedUp = some ["home", "run.log"] := by decide +kernel
  have halone : (backupRun.run ⟨backedUp, .empty⟩).1.answer = (0, "match     a\n") := by
    decide +kernel
  refine ⟨?_, ?_, ?_⟩
  · rw [readsNoLog, readsNoLog, readsNoLog, hlog, Option.toList_some, List.nil_append, hapart]
    exact Bool.and_eq_true_iff.2 ⟨hfirst, rfl⟩
  · rw [outcomes, outcomes, outcomes, List.map_cons, List.map_cons, List.map_nil, hfilling, hbackup]
  · rw [List.map_cons, List.map_cons, List.map_nil, hfilling, halone]

end IgnoreRules.CommandLine
