/-
# Runs one after the other

The program is run again and again, and the loggers and the log files live on from one run to the
next.  Whatever the runs were, each logger of the program writes to the console and to at most one
file, and each of these files is there.

* `Invocation` : a run of the program with what it finds around it;
* `Course` : what a run comes to;
* `Session.WritesTo` : the log file that a logger writes to;
* `Session.Orderly` : what holds between runs;
* `Session.setUp_spec` : what setting up the loggers leaves behind;
* `Session.Effect` : what a run may do to the files;
* `Session.Orderly.run` : what a run keeps and what it changes.
-/
import IgnoreRules.Proofs.LoggerSinks
import IgnoreRules.Proofs.RunReport

namespace IgnoreRules.CommandLine

/-- The path of the log file that settings name, if there is one that can be opened. -/
def logPath? (settings : Settings) (d : Directory) : Option (List String) :=
  (logFile? settings).bind fun file => (d.openToAppend file).toOption.map fun _ => d.fullPath file

section

variable {settings : Settings} {d d' : Directory} {path : List String}

/-- There is a path to log to exactly if the settings name a file that can be opened. -/
theorem logPath?_eq_some : logPath? settings d = some path ↔
    ∃ file, logFile? settings = some file ∧ d.fullPath file = path ∧
      d.openable (d.fullName file) (d.fullPath file) = .ok () := by
  rw [logPath?, Option.bind_eq_some_iff]
  refine exists_congr fun file => and_congr_right fun _ => ?_
  cases hopen : d.openable (d.fullName file) (d.fullPath file) with
  | error o => simp [Directory.openToAppend, hopen, Except.toOption]
  | ok done => simp [Directory.openToAppend, hopen, Except.toOption]

/-- A log file that can be opened has a path. -/
theorem logPath?_of_canLog (h : CanLog settings d) :
    logPath? settings d = (logFile? settings).map d.fullPath := by
  cases hfile : logFile? settings with
  | none =>
    rw [logPath?, hfile]
    rfl
  | some file => exact logPath?_eq_some.2 ⟨file, hfile, rfl, h file hfile⟩

theorem logPath?_of_not_canLog (h : ¬CanLog settings d) : logPath? settings d = none := by
  refine Option.eq_none_iff_forall_ne_some.2 fun path hpath => h ?_
  obtain ⟨file, hfile, -, hopen⟩ := logPath?_eq_some.1 hpath
  intro other hother
  cases hfile.symm.trans hother
  exact hopen

end

/-! ## Invocations -/

/-- A run of the program, with what it finds around it. -/
structure Invocation where
  surroundings : Surroundings
  args : List String

/-- No variables, and files with settings in the plain notation. -/
def plainSurroundings : Surroundings := ⟨[], ⟨"now", "trace", "lost"⟩, Document.plain⟩

namespace Invocation

/-- What the run shows, and what it leaves behind. -/
def run (c : Invocation) (s : Session) : Outcome × Session :=
  CommandLine.run c.surroundings c.args s

/-- The test of paths that the run is asked for. -/
def test? (c : Invocation) : Option Arguments :=
  match Arguments.parse c.args with
  | .ok (.test a) => some a
  | _ => none

/-- The settings of the test, if they can be loaded. -/
def settings? (c : Invocation) (d : Directory) : Option Settings :=
  c.test?.bind fun a => (settingsOf c.surroundings a d).toOption

/-- The settings cannot be loaded, and not because of an error of the configuration. -/
def breaksDown (c : Invocation) (d : Directory) : Bool :=
  c.test?.any fun a =>
    match settingsOf c.surroundings a d with
    | .ok _ => false
    | .error e => e.code?.isNone

/-- The path of the file that the run logs to. -/
def logPath? (c : Invocation) (d : Directory) : Option (List String) :=
  (c.settings? d).bind fun settings => CommandLine.logPath? settings d

variable {c : Invocation} {a : Arguments}

theorem logPath?_of_settings {settings : Settings} {d : Directory}
    (h : c.settings? d = some settings) : c.logPath? d = CommandLine.logPath? settings d := by
  rw [logPath?, h, Option.bind_some]

/-- Settings cannot be loaded from a file that cannot be read. -/
theorem settingsOf_of_bytesOf {u : Surroundings} {file : String} {d : Directory}
    {settings : Settings} {e : Settings.Failure} (hconfig : a.config = some file)
    (hfile : file ≠ "") (hstart : Environment.start u.reader d none u.vars = .ok settings)
    (hbytes : Settings.bytesOf d file = .error e) : settingsOf u a d = .error e := by
  have hload : settings.loadFile u.reader d file .user = .error e := by
    rw [Settings.loadFile, Settings.documentOf, hbytes]
  have hempty : file.isEmpty = false := by
    rw [Bool.eq_false_iff, ne_eq, String.isEmpty_iff]
    exact hfile
  rw [settingsOf, hstart, hconfig]
  dsimp only [bind, Except.bind]
  rw [hempty, if_neg Bool.false_ne_true, hload]

/-- A run that tests nothing shows the same in every session, and leaves it as it was. -/
theorem run_of_no_test (h : c.test? = none) : ∃ o, ∀ s, c.run s = (o, s) := by
  rw [test?] at h
  have hrun : ∀ s, c.run s = CommandLine.run c.surroundings c.args s := fun _ => rfl
  simp only [hrun, CommandLine.run]
  cases hparse : Arguments.parse c.args with
  | error f => exact ⟨_, fun _ => rfl⟩
  | ok request =>
    cases request with
    | help => exact ⟨_, fun _ => rfl⟩
    | version => exact ⟨_, fun _ => rfl⟩
    | test a =>
      rw [hparse] at h
      cases h

/-- A run that tests paths. -/
theorem run_of_test (h : c.test? = some a) (s : Session) :
    c.run s = match settingsOf c.surroundings a s.directory with
      | .error e =>
          if e.code?.isSome then (⟨.failure, "", unlines ["Error: " ++ e.message]⟩, s)
          else abandon c.surroundings (problem e.name e.message) "" s
      | .ok settings =>
          match s.setUp settings with
          | (some p, s) => abandon c.surroundings p "" s
          | (none, s) => test c.surroundings settings a s := by
  rw [test?] at h
  split at h
  · next b hparse =>
    cases h
    rewrite [run, CommandLine.run, hparse]
    rfl
  · cases h

end Invocation

/-- What a run comes to. -/
inductive Course (c : Invocation) (s : Session) : Prop
  /-- There is nothing to be tested, or an error of the configuration is reported. -/
  | idle (hnone : c.settings? s.directory = none) (hbreaks : c.breaksDown s.directory = false)
      (hrun : (c.run s).2 = s)
  /-- The settings cannot be loaded, and nobody expected it. -/
  | broken (hnone : c.settings? s.directory = none) (hbreaks : c.breaksDown s.directory = true)
      (p : Log.Problem) (hrun : c.run s = abandon c.surroundings p "" s)
  /-- The loggers cannot be set up. -/
  | stopped (settings : Settings) (p : Log.Problem) (t : Session)
      (hsettings : c.settings? s.directory = some settings) (hvalid : settings.Valid)
      (hbreaks : c.breaksDown s.directory = false) (hsetUp : s.setUp settings = (some p, t))
      (hrun : c.run s = abandon c.surroundings p "" t)
  /-- The paths are tested. -/
  | tested (settings : Settings) (a : Arguments) (t : Session)
      (hsettings : c.settings? s.directory = some settings) (hvalid : settings.Valid)
      (hbreaks : c.breaksDown s.directory = false) (hsetUp : s.setUp settings = (none, t))
      (hrun : c.run s = test c.surroundings settings a t)

/-- Every run comes to one of these. -/
theorem course (c : Invocation) (s : Session) : Course c s := by
  cases htest : c.test? with
  | none =>
    obtain ⟨o, ho⟩ := Invocation.run_of_no_test htest
    refine .idle ?_ ?_ (congrArg Prod.snd (ho s))
    · rw [Invocation.settings?, htest]
      rfl
    · rw [Invocation.breaksDown, htest]
      rfl
  | some a =>
    have hrun := Invocation.run_of_test htest s
    have hsettings : c.settings? s.directory
        = (settingsOf c.surroundings a s.directory).toOption := by
      rw [Invocation.settings?, htest, Option.bind_some]
    cases hload : settingsOf c.surroundings a s.directory with
    | error e =>
      rw [hload] at hrun hsettings
      dsimp only at hrun
      have hbreaks : c.breaksDown s.directory = e.code?.isNone := by
        rw [Invocation.breaksDown, htest, Option.any_some, hload]
      cases hcode : e.code? with
      | some n =>
        rw [hcode] at hrun hbreaks
        exact .idle hsettings hbreaks (congrArg Prod.snd hrun)
      | none =>
        rw [hcode] at hrun hbreaks
        exact .broken hsettings hbreaks _ hrun
    | ok settings =>
      rw [hload] at hrun hsettings
      have hbreaks : c.breaksDown s.directory = false := by
        rw [Invocation.breaksDown, htest, Option.any_some, hload]
      have hvalid := valid_of_settingsOf hload
      dsimp only at hrun
      cases hsetUp : s.setUp settings with
      | mk p? t =>
        rw [hsetUp] at hrun
        cases p? with
        | some p => exact .stopped settings p t hsettings hvalid hbreaks hsetUp hrun
        | none => exact .tested settings a t hsettings hvalid hbreaks hsetUp hrun

/-- A run that breaks down is given up. -/
theorem given_up_of_breaksDown {c : Invocation} {s : Session}
    (h : c.breaksDown s.directory = true) :
    c.settings? s.directory = none ∧ ∃ p, c.run s = abandon c.surroundings p "" s := by
  cases course c s with
  | broken hnone hbreaks p hrun => exact ⟨hnone, p, hrun⟩
  | idle hnone hquiet hrun => cases h.symm.trans hquiet
  | stopped settings p t hsettings hvalid hquiet hsetUp hrun => cases h.symm.trans hquiet
  | tested settings a t hsettings hvalid hquiet hsetUp hrun => cases h.symm.trans hquiet

/-! ## Sessions -/

/-- The loggers of the program. -/
def loggers : List String := [runLogger, rulesLogger]

/-- The console, and a log file if there is one. -/
def sinksFor (file? : Option (List String × Nat)) : List Log.Sink :=
  .console :: (file?.map fun e => .file e.1 e.2).toList

/-- A handler for a file is the one that was asked for. -/
theorem mem_sinksFor {path : List String} {stream : Nat} {file? : Option (List String × Nat)} :
    .file path stream ∈ sinksFor file? ↔ file? = some (path, stream) := by
  cases file? with
  | none => simp [sinksFor]
  | some e =>
    obtain ⟨q, m⟩ := e
    simp [sinksFor, eq_comm]

namespace Session

/-- A logger writes to the console, and to the log file of a path if there is one. -/
def WritesTo (path? : Option (List String)) (name : String) (s : Session) : Prop :=
  ∃ file?, s.registry.sinksOf name = sinksFor file? ∧ file?.map Prod.fst = path?

/-- The log files that a logger writes to can be reached and written to, and their streams lead to
them. -/
def Ready (name : String) (s : Session) : Prop :=
  ∀ path stream, .file path stream ∈ s.registry.sinksOf name →
    path ≠ [] ∧ Directory.Placed path s.directory ∧ Directory.Usable path s.directory ∧
      Directory.Leads path s.directory stream

/-- What holds between runs. -/
structure Orderly (s : Session) : Prop where
  /-- Handlers that are attached were made. -/
  bounded : s.registry.Bounded
  /-- The loggers that there are write to the console and to at most one file. -/
  tidy : ∀ name ∈ loggers, s.registry.hasLogger name = true → ∃ path?, s.WritesTo path? name
  /-- No run leaves a frame behind. -/
  frames : s.registry.frames = []
  /-- The logger of the command line can go on writing. -/
  ready : s.Ready runLogger

variable {s t w : Session} {path? : Option (List String)} {path : List String} {stream : Nat}
  {name : String}

theorem Orderly.fresh (d : Directory) : Orderly ⟨d, .empty⟩ where
  bounded := .empty
  tidy _ _ hlogger := by cases hlogger
  frames := rfl
  ready _ _ hmem := by cases hmem

/-- A session that is in order has no frames, and none that cannot be shown. -/
theorem Orderly.hasShowableFrames (hs : s.Orderly) : s.registry.HasShowableFrames := by
  intro frame hframe
  rw [hs.frames] at hframe
  cases hframe

/-- A logger has no handler for another file. -/
theorem WritesTo.of_mem (hs : s.WritesTo path? name)
    (hmem : .file path stream ∈ s.registry.sinksOf name) : path? = some path := by
  obtain ⟨file?, hsinks, hpath⟩ := hs
  rw [hsinks, mem_sinksFor] at hmem
  rw [← hpath, hmem]
  rfl

/-- A logger that writes to a file has a handler for it. -/
theorem WritesTo.exists_mem (hs : s.WritesTo (some path) name) :
    ∃ stream, .file path stream ∈ s.registry.sinksOf name := by
  obtain ⟨file?, hsinks, hpath⟩ := hs
  obtain ⟨e, he, rfl⟩ := Option.map_eq_some_iff.1 hpath
  exact ⟨e.2, by rw [hsinks, mem_sinksFor, he]⟩

theorem WritesTo.congr (hs : s.WritesTo path? name)
    (h : t.registry.sinksOf name = s.registry.sinksOf name) : t.WritesTo path? name := by
  obtain ⟨file?, hsinks, hpath⟩ := hs
  exact ⟨file?, h.trans hsinks, hpath⟩

/-- A logger stays ready while its log file is kept. -/
theorem Ready.kept (hs : s.Ready name) (hwrites : s.WritesTo path? name)
    (h : Directory.KeptBy path? s.directory t.directory)
    (hsame : t.registry.sinksOf name = s.registry.sinksOf name) : t.Ready name := by
  intro path stream hmem
  rw [hsame] at hmem
  obtain ⟨hne, hplaced, husable, hleads⟩ := hs path stream hmem
  have hkept := h.kept path (hwrites.of_mem hmem)
  exact ⟨hne, hplaced.same hne hkept.same, hkept.usable husable, hkept.leads stream hleads⟩

/-! ### Making loggers -/

theorem withLogger_of_hasLogger (h : s.registry.hasLogger name = true) :
    s.withLogger name = s := by
  rw [withLogger, Log.Registry.sharedLogger_of_hasLogger h]

/-- The two loggers of the program do not share a channel. -/
theorem channelName_ne {other : String} (hname : name ∈ loggers) (hother : other ∈ loggers)
    (hne : name ≠ other) : Log.Registry.channelName name ≠ Log.Registry.channelName other := by
  have hall : ∀ m ∈ loggers, ∀ n ∈ loggers, m ≠ n →
      Log.Registry.channelName m ≠ Log.Registry.channelName n := by decide
  exact hall name hname other hother hne

/-- Making one of the loggers changes sinks only if it is new, and then only its own. -/
theorem sinksOf_withLogger (hs : s.registry.Bounded) (hname : name ∈ loggers) {other : String}
    (hother : other ∈ loggers) :
    (s.withLogger name).registry.sinksOf other
      = if other = name ∧ s.registry.hasLogger name = false then [.console]
        else s.registry.sinksOf other := by
  show (s.registry.sharedLogger name).2.sinksOf other = _
  by_cases hne : other = name
  · subst hne
    rw [Log.Registry.sinksOf_sharedLogger]
    cases s.registry.hasLogger other <;> simp
  · rw [Log.Registry.sinksOf_sharedLogger_of_ne _ _ hs (channelName_ne hname hother (Ne.symm hne)),
      if_neg fun h => hne h.1]

/-- Making one of the loggers gives no logger a file. -/
theorem mem_sinksOf_withLogger (hs : s.registry.Bounded) (hname : name ∈ loggers) {other : String}
    (hother : other ∈ loggers)
    (hmem : .file path stream ∈ (s.withLogger name).registry.sinksOf other) :
    .file path stream ∈ s.registry.sinksOf other := by
  rw [sinksOf_withLogger hs hname hother] at hmem
  split at hmem
  · cases List.mem_singleton.1 hmem
  · exact hmem

/-- Making a logger of the program keeps the session in order. -/
theorem Orderly.withLogger (hs : s.Orderly) (hname : name ∈ loggers) :
    (s.withLogger name).Orderly where
  bounded := .sharedLogger _ _ hs.bounded
  tidy other hother hlogger := by
    have hsinks := sinksOf_withLogger hs.bounded hname hother
    split at hsinks
    · exact ⟨none, none, hsinks, rfl⟩
    · next hold =>
      have hlogger' : s.registry.hasLogger other = true := by
        by_cases hne : other = name
        · subst hne
          simpa using hold
        · rw [← Log.Registry.hasLogger_sharedLogger_of_ne s.registry name hne]
          exact hlogger
      obtain ⟨path?, hwrites⟩ := hs.tidy other hother hlogger'
      exact ⟨path?, hwrites.congr hsinks⟩
  frames := (Log.Registry.frames_sharedLogger _ _).trans hs.frames
  ready path stream hmem :=
    hs.ready path stream (mem_sinksOf_withLogger hs.bounded hname List.mem_cons_self hmem)

/-! ### Setting up loggers -/

/-- What setting up a logger leaves behind. -/
structure SetUp (settings : Settings) (name : String) (s t : Session) : Prop where
  bounded : t.registry.Bounded
  shared : t.registry.shared = s.registry.shared
  frames : t.registry.frames = s.registry.frames
  base : t.directory.base = s.directory.base
  kept : Directory.KeptBy (logPath? settings s.directory) s.directory t.directory
  /-- Whatever was there stays as it was. -/
  nodes : ∀ q n, s.directory.node? q = some n → t.directory.node? q = some n
  writes : t.WritesTo (logPath? settings s.directory) name
  ready : t.Ready name
  others : ∀ other, Log.Registry.channelName name ≠ Log.Registry.channelName other →
    t.registry.sinksOf other = s.registry.sinksOf other

variable {settings : Settings} {n : Int}

/-- Without its handlers for files a logger writes to the console. -/
theorem WritesTo.withoutFiles (hs : s.WritesTo path? name) (n : Int) :
    (s.withoutFiles name n).registry.sinksOf name = sinksFor none := by
  obtain ⟨file?, hsinks, -⟩ := hs
  rw [registry_withoutFiles, Log.Registry.sinksOf_withoutFiles, hsinks]
  cases file? <;> rfl

theorem node?_withoutFiles (s : Session) (name : String) (n : Int) (q : List String) (m : Node)
    (hq : s.directory.node? q = some m) : (s.withoutFiles name n).directory.node? q = some m :=
  ((kept_withoutFiles none s name n).1.of_none.node q not_false).trans hq

/-- The first step is all if there is no log file, or none that can be opened. -/
theorem SetUp.without_file (n : Int) (hs : s.registry.Bounded)
    (hwrites : s.WritesTo path? name) (hnone : logPath? settings s.directory = none) :
    SetUp settings name s (s.withoutFiles name n) where
  bounded := hs.withoutFiles name n
  shared := rfl
  frames := rfl
  base := (kept_withoutFiles none s name n).2
  kept := (kept_withoutFiles _ s name n).1
  nodes := node?_withoutFiles s name n
  writes := ⟨none, hwrites.withoutFiles n, hnone.symm⟩
  ready path stream hmem := by
    rw [hwrites.withoutFiles, mem_sinksFor] at hmem
    cases hmem
  others other hne := Log.Registry.sinksOf_withoutFiles_of_ne n hne

/-- The second step adds the log file. -/
theorem SetUp.with_file (hs : s.registry.Bounded)
    (hwrites : s.WritesTo path? name) {file : String} {d : Directory}
    (hfile : logFile? settings = some file)
    (hopen : (s.withoutFiles name n).directory.openToAppend file = .ok (stream, d)) :
    SetUp settings name s
      ⟨d, (s.withoutFiles name n).registry.attachNew name
        (.file (s.directory.fullPath file) stream)⟩ := by
  obtain ⟨hclosed, hbase⟩ := kept_withoutFiles (logPath? settings s.directory) s name n
  obtain ⟨hkept, husable, hleads⟩ := Directory.kept_openToAppend hopen
  obtain ⟨hopenable, -, -⟩ := Directory.openToAppend_cases hopen
  obtain ⟨-, hplaced, hwritable⟩ := Directory.openable_eq_ok_iff.1 hopenable
  have hne := hwritable.ne_nil
  replace hplaced := hplaced.same hne hkept.same
  -- closing handlers moved nothing, so the paths are those of the session before
  rw [Directory.fullPath_of_base hbase] at hkept husable hleads hopenable hne hplaced
  rw [Directory.fullName_of_base hbase, openable_withoutFiles] at hopenable
  have hpath : logPath? settings s.directory = some (s.directory.fullPath file) :=
    logPath?_eq_some.2 ⟨file, hfile, rfl, hopenable⟩
  have hbounded : (s.withoutFiles name n).registry.Bounded := hs.withoutFiles name n
  have hown : ((s.withoutFiles name n).registry.attachNew name
      (.file (s.directory.fullPath file) stream)).sinksOf name
        = sinksFor (some (s.directory.fullPath file, stream)) := by
    rw [Log.Registry.sinksOf_attachNew hbounded, hwrites.withoutFiles]
    rfl
  refine ⟨hbounded.attachNew name _, Log.Registry.shared_attachNew hbounded _ _,
    Log.Registry.frames_attachNew _ _ _, (Directory.base_openToAppend hopen).trans hbase, ?_,
    fun q m hq => Directory.node?_openToAppend hopen (node?_withoutFiles s name n q m hq),
    ⟨_, hown, hpath.symm⟩, ?_, ?_⟩
  · rw [hpath] at hclosed ⊢
    exact hclosed.trans hkept.by
  · intro path m hmem
    rw [hown, mem_sinksFor] at hmem
    cases hmem
    exact ⟨hne, hplaced, husable, hleads⟩
  · intro other hne
    exact (Log.Registry.sinksOf_attachNew_of_ne hbounded _ hne).trans
      (Log.Registry.sinksOf_withoutFiles_of_ne n hne)

/-- **What setting up a logger leaves behind.**  It fails exactly if the log file that the settings
name cannot be opened. -/
theorem setUpLogger_spec (hvalid : settings.Valid) (hs : s.registry.Bounded)
    (hwrites : s.WritesTo path? name) :
    SetUp settings name s (setUpLogger settings name s).2 ∧
      ((setUpLogger settings name s).1 = none ↔ CanLog settings s.directory) := by
  obtain ⟨n, hlevel⟩ := exists_rank_of_valid hvalid
  rw [setUpLogger_of_rank hlevel]
  dsimp only
  cases hfile : logFile? settings with
  | none =>
    refine ⟨.without_file n hs hwrites ?_, iff_of_true rfl ?_⟩
    · rw [logPath?, hfile]
      rfl
    · intro file hf
      cases hfile.symm.trans hf
  | some file =>
    obtain ⟨-, hbase⟩ := kept_withoutFiles none s name n
    have hcan : CanLog settings s.directory ↔
        (s.withoutFiles name n).directory.openable
          ((s.withoutFiles name n).directory.fullName file)
          ((s.withoutFiles name n).directory.fullPath file) = .ok () := by
      rw [openable_withoutFiles, Directory.fullName_of_base hbase, Directory.fullPath_of_base hbase]
      refine ⟨fun h => h file hfile, fun h other hother => ?_⟩
      cases hfile.symm.trans hother
      exact h
    dsimp only
    cases hopen : (s.withoutFiles name n).directory.openToAppend file with
    | error o =>
      have hnot : ¬CanLog settings s.directory := by
        rw [hcan]
        intro h
        obtain ⟨stream, d, hd⟩ := Directory.exists_openToAppend h
        cases hopen.symm.trans hd
      rw [addFile, hopen]
      exact ⟨.without_file n hs hwrites (logPath?_of_not_canLog hnot),
        iff_of_false (by simp) hnot⟩
    | ok opened =>
      obtain ⟨stream, d⟩ := opened
      rw [addFile_eq hopen, Directory.fullPath_of_base hbase]
      exact ⟨.with_file hs hwrites hfile hopen,
        iff_of_true rfl (hcan.2 (Directory.openToAppend_cases hopen).1)⟩

/-- The session in which both loggers are made. -/
def withLoggers (s : Session) : Session := (s.withLogger runLogger).withLogger rulesLogger

theorem mem_loggers : name ∈ loggers ↔ name = runLogger ∨ name = rulesLogger := by
  simp [loggers]

theorem hasLogger_withLoggers (s : Session) (hname : name ∈ loggers) :
    s.withLoggers.registry.hasLogger name = true := by
  rcases mem_loggers.1 hname with rfl | rfl
  · have hne : runLogger ≠ rulesLogger := by decide
    have hkept := Log.Registry.hasLogger_sharedLogger_of_ne (s.withLogger runLogger).registry
      rulesLogger hne
    exact hkept.trans (Log.Registry.hasLogger_sharedLogger s.registry runLogger)
  · exact Log.Registry.hasLogger_sharedLogger (s.withLogger runLogger).registry rulesLogger

/-- A log file that one logger has opened can be opened for the other one. -/
theorem SetUp.canLog (h : SetUp settings name s t) (hlog : CanLog settings s.directory) :
    CanLog settings t.directory := by
  intro file hfile
  have hopen := hlog file hfile
  have hwrites := h.writes
  rw [logPath?_eq_some.2 ⟨file, hfile, rfl, hopen⟩] at hwrites
  obtain ⟨stream, hmem⟩ := hwrites.exists_mem
  obtain ⟨-, hplaced, husable, -⟩ := h.ready _ _ hmem
  rw [Directory.fullName_of_base h.base, Directory.fullPath_of_base h.base]
  exact Directory.openable_eq_ok_iff.2
    ⟨(Directory.openable_eq_ok_iff.1 hopen).1, hplaced, husable.writable⟩

/-- Setting up a logger does not move the log file. -/
theorem SetUp.logPath? (h : SetUp settings name s t) (hlog : CanLog settings s.directory) :
    CommandLine.logPath? settings t.directory = CommandLine.logPath? settings s.directory := by
  rw [logPath?_of_canLog hlog, logPath?_of_canLog (h.canLog hlog)]
  congr 1
  funext file
  exact Directory.fullPath_of_base h.base file

/-- What is left behind when both loggers could be set up. -/
structure BothSetUp (path? : Option (List String)) (t : Session) : Prop where
  writes : ∀ name ∈ loggers, t.WritesTo path? name
  ready : ∀ name ∈ loggers, t.Ready name

/-- Setting up the logger of the command line leaves an orderly session. -/
theorem Orderly.setUpLogger (hs : s.Orderly)
    (hloggers : ∀ name ∈ loggers, s.registry.hasLogger name = true)
    (h : SetUp settings runLogger s t) : t.Orderly where
  bounded := h.bounded
  tidy other hother _ := by
    by_cases hne : runLogger = other
    · subst hne
      exact ⟨_, h.writes⟩
    · obtain ⟨path?, hwrites⟩ := hs.tidy other hother (hloggers other hother)
      exact ⟨path?, hwrites.congr (h.others other (channelName_ne List.mem_cons_self hother hne))⟩
  frames := h.frames.trans hs.frames
  ready := h.ready

/-- The second logger leaves the first one as it is, and writes to the same file. -/
theorem BothSetUp.of_setUp (hfirst : SetUp settings runLogger s t)
    (hsecond : SetUp settings rulesLogger t w) (hlog : CanLog settings s.directory) :
    BothSetUp (logPath? settings s.directory) w := by
  have hne : Log.Registry.channelName rulesLogger ≠ Log.Registry.channelName runLogger := by decide
  have hsinks := hsecond.others runLogger hne
  have hkept := hsecond.kept
  have hwrites := hsecond.writes
  rw [hfirst.logPath? hlog] at hkept hwrites
  have hrun := hfirst.ready.kept hfirst.writes hkept hsinks
  refine ⟨?_, ?_⟩
  all_goals
    intro name hname
    rcases mem_loggers.1 hname with rfl | rfl
  · exact hfirst.writes.congr hsinks
  · exact hwrites
  · exact hrun
  · exact hsecond.ready

/-- **What setting up the loggers leaves behind.**  If it fails, then at the first logger, and
because the log file cannot be opened. -/
theorem setUp_spec (hvalid : settings.Valid) (hs : s.Orderly) :
    let t := (s.setUp settings).2
    let path? := logPath? settings s.directory
    t.Orderly ∧ Directory.KeptBy path? s.directory t.directory ∧
      (∀ q n, s.directory.node? q = some n → t.directory.node? q = some n) ∧
      (∀ name ∈ loggers, t.registry.hasLogger name = true) ∧ t.WritesTo path? runLogger ∧
      ((s.setUp settings).1 = none ↔ CanLog settings s.directory) ∧
      ((s.setUp settings).1 = none → BothSetUp path? t) := by
  have hrunLogger : runLogger ∈ loggers := mem_loggers.2 (Or.inl rfl)
  have hrulesLogger : rulesLogger ∈ loggers := mem_loggers.2 (Or.inr rfl)
  have hstart : s.withLoggers.Orderly := (hs.withLogger hrunLogger).withLogger hrulesLogger
  have hthere : ∀ name ∈ loggers, s.withLoggers.registry.hasLogger name = true :=
    fun name hname => s.hasLogger_withLoggers hname
  obtain ⟨path?, hbefore⟩ := hstart.tidy runLogger hrunLogger (hthere runLogger hrunLogger)
  obtain ⟨hfirst, hfirstOk⟩ := setUpLogger_spec hvalid hstart.bounded hbefore
  have horderly := hstart.setUpLogger hthere hfirst
  have hkeep : ∀ name ∈ loggers,
      (setUpLogger settings runLogger s.withLoggers).2.registry.hasLogger name = true := by
    intro name hname
    rw [Log.Registry.hasLogger, hfirst.shared]
    exact hthere name hname
  have hsetUp : s.setUp settings = match setUpLogger settings runLogger s.withLoggers with
      | (some p, s) => (some p, s)
      | (none, s) => setUpLogger settings rulesLogger s := rfl
  rw [hsetUp]
  cases hset : setUpLogger settings runLogger s.withLoggers with
  | mk p? t =>
    rw [hset] at hfirst hfirstOk horderly hkeep
    cases p? with
    | some p =>
      -- the second logger is not reached
      refine ⟨horderly, hfirst.kept, hfirst.nodes, hkeep, hfirst.writes, hfirstOk, fun h => ?_⟩
      cases h
    | none =>
      -- what the first logger could open the second one can open again, so it does not fail
      have hlog : CanLog settings s.directory := hfirstOk.1 rfl
      obtain ⟨path?', hbefore'⟩ :=
        horderly.tidy rulesLogger hrulesLogger (hkeep rulesLogger hrulesLogger)
      obtain ⟨hsecond, hsecondOk⟩ := setUpLogger_spec hvalid horderly.bounded hbefore'
      have hboth := BothSetUp.of_setUp hfirst hsecond hlog
      have hkept := hsecond.kept
      rw [hfirst.logPath? hlog] at hkept
      refine ⟨⟨hsecond.bounded, fun name hname _ => ⟨_, hboth.writes name hname⟩,
          hsecond.frames.trans horderly.frames, hboth.ready runLogger hrunLogger⟩,
        hfirst.kept.trans hkept, fun q n hq => hsecond.nodes q n (hfirst.nodes q n hq), ?_,
        hboth.writes runLogger hrunLogger,
        iff_of_true (hsecondOk.2 (hfirst.canLog hlog)) hlog, fun _ => hboth⟩
      intro name hname
      rw [Log.Registry.hasLogger, hsecond.shared]
      exact hkeep name hname

/-! ### Delivering records -/

/-- Records that are delivered under a name change the log file of this name alone. -/
theorem kept_perform (hready : s.Ready name) (hwrites : s.WritesTo path? name) (u : Surroundings)
    (r : Log.Record) :
    Directory.KeptBy path? s.directory
      (s.perform u (s.registry.deliver name u.layout r)).2.directory := by
  obtain ⟨file?, hsinks, rfl⟩ := hwrites
  have hdeliver : ∀ path stream text,
      .file path stream text ∈ s.registry.deliver name u.layout r →
        file? = some (path, stream) := by
    intro path stream text hmem
    rw [← mem_sinksFor, ← hsinks]
    exact Log.Registry.mem_sinksOf_of_mem_deliver hmem
  cases file? with
  | none =>
    have hsame := Log.perform_of_no_file u.layout s.directory fun path stream text hmem =>
      Option.some_ne_none _ (hdeliver path stream text hmem).symm
    rw [perform]
    dsimp only
    rw [hsame]
    exact .refl _ _
  | some e =>
    obtain ⟨path, stream⟩ := e
    obtain ⟨hne, hplaced, -, hleads⟩ :=
      hready path stream (by rw [hsinks]; exact mem_sinksFor.2 rfl)
    refine (Log.kept_perform u.layout hne hplaced hleads ?_).by
    intro path' stream' text hmem
    obtain ⟨rfl, rfl⟩ := Prod.mk.inj (Option.some.inj (hdeliver path' stream' text hmem))
    exact ⟨rfl, rfl⟩

/-- What a record does that is delivered to a log file. -/
theorem perform_deliver (hsinks : s.registry.sinksOf name = sinksFor (some (path, stream)))
    {r : Log.Record} (hlevel : (s.registry.channel name).level ≤ r.severity.rank)
    (u : Surroundings) :
    (s.perform u (s.registry.deliver name u.layout r)).2 = { s with directory :=
      (Directory.emit path stream (r.withProblem u.layout (r.fileLine u.layout))
        s.directory).1 } := by
  rw [Log.Registry.deliver_of_sinksOf hsinks hlevel]
  rfl

/-- An entry below the level of its logger does nothing. -/
theorem log_of_lt {e : Log.Entry}
    (hlevel : (e.severity.rank : Int) < (s.registry.channel name).level) (u : Surroundings) :
    s.log u name e = some ("", s) := by
  have hadmits : s.registry.admits name e.severity.rank = false := by
    rw [Log.Registry.admits_severity]
    exact decide_eq_false (Int.not_le.2 hlevel)
  have hdeliver : ∀ r : Log.Record, r.severity = e.severity →
      s.registry.deliver name u.layout r = [] := by
    intro r hr
    rw [Log.Registry.deliver, hr, hadmits]
    rfl
  rw [log, Log.Registry.log, hadmits, hdeliver _ rfl]
  rfl

/-- An entry that can be shown and is not below the level is added to the log file. -/
theorem exists_log_emit (hframes : s.registry.HasShowableFrames) {e : Log.Entry}
    (he : (Value.mapping e.context).isShowable = true)
    (hsinks : s.registry.sinksOf name = sinksFor (some (path, stream)))
    (hlevel : (s.registry.channel name).level ≤ e.severity.rank) (u : Surroundings) :
    ∃ shown text, s.log u name e
      = some (shown, { s with directory := (Directory.emit path stream text s.directory).1 }) := by
  have hshowable : (s.registry.entryRecord name e).isShowable = true :=
    s.registry.isShowable_context hframes he
  rw [log, Log.Registry.log, hshowable]
  simp only [Bool.not_true, Bool.and_false, Bool.false_eq_true, if_false, Option.map_some]
  exact ⟨_, _, congrArg some (Prod.ext rfl (perform_deliver hsinks hlevel u))⟩

/-- Logging keeps all files but the one that the logger writes to. -/
theorem kept_log (hready : s.Ready name) (hwrites : s.WritesTo path? name) {u : Surroundings}
    {e : Log.Entry} {text : String} (h : s.log u name e = some (text, t)) :
    Directory.KeptBy path? s.directory t.directory ∧ t.registry = s.registry := by
  rw [log, Log.Registry.log] at h
  split at h
  · cases h
  · obtain rfl := congrArg Prod.snd (Option.some.inj h)
    exact ⟨kept_perform hready hwrites u _, rfl⟩

/-- Reporting a problem keeps all files but the one that the logger writes to. -/
theorem kept_report (hready : s.Ready name) (hwrites : s.WritesTo path? name) {u : Surroundings}
    {message : String} {p : Log.Problem} {text : String}
    (h : s.report u name message p = some (text, t)) :
    Directory.KeptBy path? s.directory t.directory ∧ t.registry = s.registry := by
  rw [report, Log.Registry.report] at h
  split at h
  · obtain rfl := congrArg Prod.snd (Option.some.inj h)
    exact ⟨kept_perform hready hwrites u _, rfl⟩
  · cases h

/-- A session stays orderly while the log file of the command line is kept. -/
theorem Orderly.kept (hs : s.Orderly) (hwrites : s.WritesTo path? runLogger)
    (h : Directory.KeptBy path? s.directory t.directory) (hsame : t.registry = s.registry) :
    t.Orderly where
  bounded := hsame ▸ hs.bounded
  tidy name hname hlogger := by
    obtain ⟨path?, hpath⟩ := hs.tidy name hname (hsame ▸ hlogger)
    exact ⟨path?, hpath.congr (by rw [hsame])⟩
  frames := hsame ▸ hs.frames
  ready := hs.ready.kept hwrites h (by rw [hsame])

/-- **A problem that nobody expected** goes to the log file of the command line. -/
theorem Orderly.abandon (hs : s.Orderly)
    (hwrites : (s.withLogger runLogger).WritesTo path? runLogger) (u : Surroundings)
    (p : Log.Problem) (errors : String) :
    let result := CommandLine.abandon u p errors s
    result.2.Orderly ∧ Directory.KeptBy path? s.directory result.2.directory ∧
      result.2.registry = (s.withLogger runLogger).registry := by
  have hlogger : (s.withLogger runLogger).Orderly := hs.withLogger List.mem_cons_self
  obtain ⟨text, d, hreport⟩ :=
    exists_report hlogger.hasShowableFrames u runLogger "Unexpected error" p
  obtain ⟨hkept, hsame⟩ := kept_report hlogger.ready hwrites hreport
  rw [CommandLine.abandon, hreport]
  exact ⟨hlogger.kept hwrites hkept hsame, hkept, hsame⟩

/-- **A test** writes to the log file of the loggers. -/
theorem Orderly.test (hs : s.Orderly) {settings : Settings} (hvalid : settings.Valid)
    (hboth : BothSetUp path? s) (u : Surroundings) (a : Arguments) :
    let t := (CommandLine.test u settings a s).2
    t.Orderly ∧ Directory.KeptBy path? s.directory t.directory ∧ t.registry = s.registry := by
  have hrun : runLogger ∈ loggers := mem_loggers.2 (Or.inl rfl)
  have hrules : rulesLogger ∈ loggers := mem_loggers.2 (Or.inr rfl)
  obtain ⟨n, pos, enabled, hk⟩ := Compiler.exists_ofSettings_of_valid hvalid
  let k : Compiler := ⟨.empty (.atMost n pos) enabled, 0⟩
  -- the logger of the rules has its say first, and both write to the same file
  obtain ⟨first, d, hfirst⟩ := exists_log hs.hasShowableFrames
    (Compiler.isShowable_entry k a.pattern.toList) u rulesLogger
  obtain ⟨hkept, -⟩ := kept_log (hboth.ready rulesLogger hrules)
    (hboth.writes rulesLogger hrules) hfirst
  have hwrites : Session.WritesTo path? runLogger { s with directory := d } :=
    hboth.writes runLogger hrun
  have hmid : Session.Orderly { s with directory := d } :=
    hs.kept (hboth.writes runLogger hrun) hkept rfl
  obtain ⟨more, d', hsecond⟩ := exists_log hmid.hasShowableFrames
    (isShowable_testEntry (k.compile a.pattern.toList).1.rule a.paths) u runLogger
  obtain ⟨hkept', -⟩ := kept_log hmid.ready hwrites hsecond
  rw [CommandLine.test, hk]
  dsimp only
  rw [hfirst]
  dsimp only
  rw [hsecond]
  exact ⟨hmid.kept hwrites hkept' rfl, hkept.trans hkept', rfl⟩

/-! ### Runs -/

/-- What a run does to the files. -/
structure Effect (path? : Option (List String)) (s t : Session) : Prop where
  kept : Directory.KeptBy path? s.directory t.directory
  /-- The log file could be opened before the run. -/
  before : ∀ path ∈ path?,
    Directory.Placed path s.directory ∧ Directory.Writable path s.directory
  /-- Behind the run the logger of the command line has the log file. -/
  mem : ∀ path ∈ path?, ∃ stream, .file path stream ∈ t.registry.sinksOf runLogger

theorem Effect.refl (s : Session) : Effect none s s where
  kept := .refl _ _
  before path hpath := by cases hpath
  mem path hpath := by cases hpath

/-- What a run does that could load its settings. -/
theorem Effect.of_logPath? {settings : Settings}
    (h : Directory.KeptBy (logPath? settings s.directory) s.directory t.directory)
    (hwrites : t.WritesTo (logPath? settings s.directory) runLogger) :
    Effect (logPath? settings s.directory) s t where
  kept := h
  before path hpath := by
    obtain ⟨file, -, rfl, hopen⟩ := logPath?_eq_some.1 hpath
    exact (Directory.openable_eq_ok_iff.1 hopen).2
  mem path hpath := by
    rw [Option.mem_def.1 hpath] at hwrites
    exact hwrites.exists_mem

/-- What a run does that is given up before its loggers are set up: it writes to no log file but
that of the logger of the command line. -/
theorem Orderly.effect_abandon (hs : s.Orderly) (u : Surroundings) (p : Log.Problem)
    (errors : String) :
    let t := (CommandLine.abandon u p errors s).2
    t.Orderly ∧
      (∀ path stream, .file path stream ∈ t.registry.sinksOf runLogger →
        .file path stream ∈ s.registry.sinksOf runLogger) ∧
      ∃ path?, Effect path? s t ∧
        ∀ path ∈ path?, ∃ stream, .file path stream ∈ s.registry.sinksOf runLogger := by
  have hrun : runLogger ∈ loggers := mem_loggers.2 (Or.inl rfl)
  have hthere := hs.withLogger hrun
  obtain ⟨path?, hwrites⟩ := hthere.tidy runLogger hrun (Log.Registry.hasLogger_sharedLogger _ _)
  obtain ⟨horderly, hkept, hregistry⟩ := hs.abandon hwrites u p errors
  have hmem : ∀ path ∈ path?, ∃ stream,
      .file path stream ∈ (s.withLogger runLogger).registry.sinksOf runLogger := by
    intro path hpath
    rw [Option.mem_def.1 hpath] at hwrites
    exact hwrites.exists_mem
  have hold : ∀ path stream,
      .file path stream ∈ (s.withLogger runLogger).registry.sinksOf runLogger →
        .file path stream ∈ s.registry.sinksOf runLogger :=
    fun path stream => mem_sinksOf_withLogger hs.bounded hrun hrun
  refine ⟨horderly, ?_, path?, ⟨hkept, ?_, ?_⟩, ?_⟩
  · rw [hregistry]
    exact hold
  · intro path hpath
    obtain ⟨stream, hstream⟩ := hmem path hpath
    obtain ⟨-, hplaced, husable, -⟩ := hthere.ready path stream hstream
    exact ⟨hplaced, husable.writable⟩
  · rw [hregistry]
    exact hmem
  · intro path hpath
    obtain ⟨stream, hstream⟩ := hmem path hpath
    exact ⟨stream, hold path stream hstream⟩

/-- **What a run keeps and what it changes.**  It concerns no log file but the one that the settings
name, unless it breaks down: then it concerns none but that of the logger of the command line. -/
theorem Orderly.run (hs : s.Orderly) (c : Invocation) :
    let t := (c.run s).2
    t.Orderly ∧
      (∀ path stream, .file path stream ∈ t.registry.sinksOf runLogger →
        c.logPath? s.directory = some path ∨
          .file path stream ∈ s.registry.sinksOf runLogger) ∧
      ∃ path?, Effect path? s t ∧
        (path? = c.logPath? s.directory ∨ c.breaksDown s.directory = true ∧
          ∀ path ∈ path?, ∃ stream, .file path stream ∈ s.registry.sinksOf runLogger) := by
  have hrunLogger : runLogger ∈ loggers := mem_loggers.2 (Or.inl rfl)
  cases course c s with
  | idle hnone hbreaks hrun =>
    rw [hrun]
    refine ⟨hs, fun path stream hmem => Or.inr hmem, none, .refl s, Or.inl ?_⟩
    rw [Invocation.logPath?, hnone]
    rfl
  | broken hnone hbreaks p hrun =>
    obtain ⟨horderly, hold, path?, heffect, hpath⟩ := hs.effect_abandon c.surroundings p ""
    rw [hrun]
    exact ⟨horderly, fun path stream hmem => Or.inr (hold path stream hmem), path?, heffect,
      Or.inr ⟨hbreaks, hpath⟩⟩
  | stopped settings p t hsettings hvalid hbreaks hsetUp hrun =>
    obtain ⟨horderly, hkept, -, hloggers, hwrites, -⟩ := setUp_spec hvalid hs
    rw [hsetUp] at horderly hkept hloggers hwrites
    -- the loggers were made before this failed, so giving up makes none
    have hsame := withLogger_of_hasLogger (hloggers runLogger hrunLogger)
    obtain ⟨horderly', hkept', hregistry⟩ :=
      horderly.abandon (hsame.symm ▸ hwrites) c.surroundings p ""
    rw [hsame] at hregistry
    have hwrites' := hwrites.congr (congrArg (·.sinksOf runLogger) hregistry)
    rw [hrun, c.logPath?_of_settings hsettings]
    exact ⟨horderly', fun path stream hmem => Or.inl (hwrites'.of_mem hmem), _,
      .of_logPath? (hkept.trans hkept') hwrites', Or.inl rfl⟩
  | tested settings a t hsettings hvalid hbreaks hsetUp hrun =>
    obtain ⟨horderly, hkept, -, -, hwrites, -, hboth⟩ := setUp_spec hvalid hs
    rw [hsetUp] at horderly hkept hwrites hboth
    obtain ⟨horderly', hkept', hregistry⟩ :=
      horderly.test hvalid (hboth rfl) c.surroundings a
    have hwrites' := hwrites.congr (congrArg (·.sinksOf runLogger) hregistry)
    rw [hrun, c.logPath?_of_settings hsettings]
    exact ⟨horderly', fun path stream hmem => Or.inl (hwrites'.of_mem hmem), _,
      .of_logPath? (hkept.trans hkept') hwrites', Or.inl rfl⟩

/-- The session behind runs one after the other. -/
def after (s : Session) (cs : List Invocation) : Session := cs.foldl (fun s c => (c.run s).2) s

/-- **Any runs keep the session in order**, by induction on the runs. -/
theorem Orderly.after (hs : s.Orderly) (cs : List Invocation) : (s.after cs).Orderly := by
  induction cs generalizing s with
  | nil => exact hs
  | cons c cs ih => exact ih (hs.run c).1

end Session

end IgnoreRules.CommandLine
