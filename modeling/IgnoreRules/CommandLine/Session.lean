/-
# Sessions

A session is what the runs of a program find and leave behind: the files, and the loggers, which
live on from one run to the next.  Before paths are tested the loggers of the program are set up as
the settings say, each with at most one handler that writes to a file.
-/
import IgnoreRules.CommandLine.Arguments
import IgnoreRules.Log.Registry
import IgnoreRules.Settings.Environment

namespace IgnoreRules.CommandLine

/-- What does not change from run to run. -/
structure Surroundings where
  /-- The variables of the environment, in their order. -/
  vars : List (String × String)
  layout : Log.Layout
  /-- What reads the files with settings. -/
  reader : Document.Reader

/-- What runs find and leave behind. -/
structure Session where
  directory : Directory
  registry : Log.Registry

/-! ## Settings -/

/-- The settings of a test: those of the environment, those of the file that is named, and the
lowest level if everything is to be logged. -/
def settingsOf (u : Surroundings) (a : Arguments) (d : Directory) :
    Except Settings.Failure Settings := do
  let s ← Environment.start u.reader d none u.vars
  let s ←
    match a.config with
    | none => pure s
    | some file => if file.isEmpty then pure s else s.loadFile u.reader d file .user
  if a.debug then s.set (Key.full Key.logging Key.level) (.text Log.Severity.debug.name) .commandLine
  else pure s

/-- The level that the settings ask for. -/
def levelOf (s : Settings) : Log.Level :=
  match s.get (Key.full Key.logging Key.level) .null with
  | .text name => .named name
  | _ => Log.Registry.defaultLevel

/-- The log file that the settings name. -/
def logFile? (s : Settings) : Option String :=
  match s.get (Key.full Key.logging Key.file) .null with
  | .text name => if name.isEmpty then none else some name
  | _ => none

/-! ## Loggers -/

/-- The logger of the command line. -/
def runLogger : String := "ignorematch.cli"

/-- The logger of the rules. -/
def rulesLogger : String := "ignorematch.rules"

/-- A problem of a kind with a text that came up in a run. -/
def problem (name text : String) : Log.Problem := ⟨name, name, text, true⟩

/-- The problem of a record that cannot be shown. -/
def unshowable : Log.Problem := problem "ValueError" Value.unshowable

namespace Session

/-- Makes sure that there is a logger for a name. -/
def withLogger (s : Session) (name : String) : Session :=
  { s with registry := (s.registry.sharedLogger name).2 }

/-- Detaches the handlers of a name that write to files, and closes their streams. -/
def dropFiles (s : Session) (name : String) : Session where
  directory := (s.registry.streamsOf name).foldl Directory.close s.directory
  registry := s.registry.detachFiles name

/-- Attaches a handler to a name that writes to a file. -/
def addFile (s : Session) (name file : String) : Except Directory.Obstacle Session :=
  match s.directory.openToAppend file with
  | .error o => .error o
  | .ok (stream, d) =>
      let (h, g) := s.registry.addSink (.file (d.fullPath file) stream)
      .ok ⟨d, g.attach name h⟩

/-- Sets up one logger, and gives the problem that came up, if any. -/
def setUpLogger (settings : Settings) (name : String) (s : Session) :
    Option Log.Problem × Session :=
  match s.registry.setLevel name (levelOf settings) with
  | .error e => (some (problem e.name e.message), s)
  | .ok g =>
      let s := dropFiles { s with registry := g } name
      match logFile? settings with
      | none => (none, s)
      | some file =>
          match s.addFile name file with
          | .error o => (some (problem o.name (o.message (s.directory.fullName file))), s)
          | .ok s => (none, s)

/-- Sets up both loggers.  The second one is left as it was when a problem comes up with the
first. -/
def setUp (settings : Settings) (s : Session) : Option Log.Problem × Session :=
  match setUpLogger settings runLogger ((s.withLogger runLogger).withLogger rulesLogger) with
  | (some p, s) => (some p, s)
  | (none, s) => setUpLogger settings rulesLogger s

/-! ## Logging -/

/-- Carries deliveries out, and gives what they write to the console. -/
def perform (u : Surroundings) (s : Session) (ds : List Log.Delivery) : String × Session :=
  let (d, text) := Log.perform u.layout s.directory ds
  (text, { s with directory := d })

/-- Logs an entry under a name; `none` if its context cannot be shown. -/
def log (u : Surroundings) (s : Session) (name : String) (e : Log.Entry) :
    Option (String × Session) :=
  (s.registry.log name u.layout e).map (s.perform u)

/-- Reports a problem under a name. -/
def report (u : Surroundings) (s : Session) (name message : String) (p : Log.Problem) :
    Option (String × Session) :=
  (s.registry.report name u.layout message p []).map (s.perform u)

end Session

end IgnoreRules.CommandLine
