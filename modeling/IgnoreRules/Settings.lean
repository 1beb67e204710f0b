/-
# Layered settings

Settings come from several sources.  Each source has a layer of its own, and a value is looked up
from the source of highest precedence down.

* `Settings.get?` finds the value of a key, a path with points between its parts;
* `Settings.all` is the one mapping that all layers make, each laid over those below it;
* `Settings.set` writes one value, `Settings.load` replaces a layer by a checked document, and
  `Settings.loadFile` reads that document from a file.

A step that fails leaves the settings as they were.  What reads documents is a parameter of those
steps that need it.  A mapping is taken as it is when it is handed over: no two places of the layers
share one.
-/
import IgnoreRules.Directory
import IgnoreRules.Settings.Schema
import IgnoreRules.Value.Document

namespace IgnoreRules

/-! ## Sources -/

/-- Where settings come from. -/
inductive Source where
  /-- What holds when nothing else is said. -/
  | defaults
  | user
  | environment
  | commandLine
  | runtime
deriving DecidableEq, Repr

namespace Source

/-- The sources by precedence, the lowest first. -/
def ascending : List Source := [.defaults, .user, .environment, .commandLine, .runtime]

/-- What messages call a source. -/
def label : Source → String
  | .defaults => "compiled_defaults"
  | .user => "user_config"
  | .environment => "environment"
  | .commandLine => "cli_args"
  | .runtime => "runtime"

/-- Every source has its place in the order. -/
theorem mem_ascending (s : Source) : s ∈ ascending := by
  cases s <;> simp [ascending]

end Source

/-! ## Layers -/

/-- The layers of all sources.  A source that says nothing has an empty layer. -/
structure Settings where
  layer : Source → Entries

namespace Settings

/-- The level of the loggers when nothing else is said. -/
def defaultLevel : String := Log.Severity.warning.name

/-- The size of the cache when nothing else is said. -/
def defaultMaxEntries : Int := 1024

/-- The layer of the defaults. -/
def defaultLayer : Entries :=
  [(.text Key.root, .mapping [
    (.text Key.logging, .mapping [
      (.text Key.level, .text defaultLevel),
      (.text Key.file, .null)]),
    (.text Key.cache, .mapping [
      (.text Key.enabled, .bool true),
      (.text Key.maxEntries, .int defaultMaxEntries)])])]

/-- The settings before anything is loaded. -/
def initial : Settings where
  layer
    | .defaults => defaultLayer
    | _ => []

/-- Replaces the layer of one source. -/
def replace (s : Settings) (source : Source) (es : Entries) : Settings where
  layer t := if t = source then es else s.layer t

@[simp] theorem layer_replace_self (s : Settings) (source : Source) (es : Entries) :
    (s.replace source es).layer source = es := by
  simp [replace]

@[simp] theorem layer_replace_of_ne (s : Settings) {source t : Source} (es : Entries)
    (h : t ≠ source) : (s.replace source es).layer t = s.layer t := by
  simp [replace, h]

/-! ## Looking up -/

/-- The parts of a key. -/
def parts (key : String) : List String := Text.split "." key

/-- The value of a path in one layer; null counts as no value. -/
def valueIn? (es : Entries) (path : List String) : Option Value :=
  ((Value.mapping es).walk path).filter fun v => !v.isNull

/-- The value of a path in the first of the sources that has one. -/
def find? (s : Settings) (sources : List Source) (path : List String) : Option Value :=
  sources.findSome? fun source => valueIn? (s.layer source) path

/-- The value of a key. -/
def get? (s : Settings) (key : String) : Option Value :=
  s.find? Source.ascending.reverse (parts key)

/-- The value of a key, or the given one when there is none. -/
def get (s : Settings) (key : String) (default : Value) : Value := (s.get? key).getD default

/-- All layers as one mapping. -/
def all (s : Settings) : Entries :=
  Source.ascending.foldl (fun merged source => Entries.merge merged (s.layer source)) []

/-! ## Failures -/

/-- Why settings cannot be loaded or written. -/
inductive Failure where
  /-- The document from `origin` is not a configuration. -/
  | invalid (origin : String) (fault : Schema.Fault)
  /-- The unknown keys of a document cannot be listed. -/
  | keys (fault : Schema.KeyFault)
  /-- The file is named from a home directory that is not known. -/
  | homeless
  /-- There is no such file. -/
  | missing (file : String)
  /-- It cannot be seen whether there is such a file; `place` is its name from the home directory
  on. -/
  | unseen (place : String) (o : Directory.Obstacle)
  /-- The file cannot be opened. -/
  | unreadable (file place : String) (o : Directory.Obstacle)
  /-- The file breaks the rules of documents. -/
  | malformed (file detail : String)
  /-- The system failed while the file was read. -/
  | interrupted (file text : String)
  /-- Another problem came up while the file was read. -/
  | broken (name text : String)
  /-- The document of the file is no mapping. -/
  | notMapping (file : String)
  /-- A place on the way to the value holds something else than a mapping. -/
  | blocked (cause : Blocked)

/-- The wording of a blocked path. -/
def blockedMessage : Blocked → String
  | .last .list => "list indices must be integers or slices, not str"
  | .last kind => "'" ++ kind.name ++ "' object does not support item assignment"
  | .within kind => "'" ++ kind.name ++ "' object has no attribute 'setdefault'"

/-- The wording of a failure. -/
def Failure.message : Failure → String
  | .invalid origin fault =>
      if fault.isWordable then "Invalid configuration in " ++ origin ++ ": " ++ fault.message
      else Value.unshowable
  | .keys fault => fault.message
  | .homeless => "Could not determine home directory."
  | .missing file => "Config file not found: " ++ file
  | .unseen place o => o.message (Directory.plainName place)
  | .unreadable file place .denied =>
      "Cannot read config " ++ file ++ ": " ++
        Directory.Obstacle.denied.message (Directory.plainName place)
  | .unreadable file place o =>
      "Error loading config " ++ file ++ ": " ++ o.message (Directory.plainName place)
  | .malformed file detail => "YAML parse error in " ++ file ++ ": " ++ detail
  | .interrupted file text => "Error loading config " ++ file ++ ": " ++ text
  | .broken _ text => text
  | .notMapping file => "Invalid config format in " ++ file
  | .blocked cause => blockedMessage cause

/-- The name of the kind of a failure. -/
def Failure.name : Failure → String
  | .invalid _ fault => if fault.isWordable then "ConfigError" else "ValueError"
  | .keys _ => "TypeError"
  | .homeless => "RuntimeError"
  | .unseen _ o => o.name
  | .broken name _ => name
  | .blocked (.last _) => "TypeError"
  | .blocked (.within _) => "AttributeError"
  | _ => "ConfigError"

/-- The code of a failure that is reported as an error of the configuration; other failures have
none. -/
def Failure.code? : Failure → Option Nat
  | .invalid _ fault => (Schema.Refusal.fault fault).code?
  | .malformed _ _ => some 1
  | .notMapping _ => some 1
  | .missing _ => some 2
  | .unreadable _ _ .denied => some 3
  | .unreadable _ _ _ => some 6
  | .interrupted _ _ => some 6
  | .keys _ => none
  | .homeless => none
  | .unseen _ _ => none
  | .broken _ _ => none
  | .blocked _ => none

/-! ## Changing settings -/

/-- Writes the value of a key in the layer of a source. -/
def set (s : Settings) (key : String) (value : Value) (source : Source) :
    Except Failure Settings :=
  match (s.layer source).putPath value (parts key) with
  | .ok es => .ok (s.replace source es)
  | .error cause => .error (.blocked cause)

/-- The entries of a document from `origin`, if that is a configuration. -/
def entriesOf (document : Value) (origin : String) : Except Failure Entries :=
  match Schema.check document, document with
  | .error (.fault f), _ => .error (.invalid origin f)
  | .error (.keys f), _ => .error (.keys f)
  | .ok (), .mapping es => .ok es
  | .ok (), _ => .error (.invalid origin (.notMapping .document))

/-- Replaces the layer of a source by a document, if that is a configuration. -/
def load (s : Settings) (document : Value) (source : Source) (origin : String) :
    Except Failure Settings :=
  match entriesOf document origin with
  | .error e => .error e
  | .ok es => .ok (s.replace source es)

/-- The bytes of a file, which may be named from a home directory on.  Nothing is known of a file in
a place that cannot be searched. -/
def bytesOf (d : Directory) (file : String) : Except Failure ByteArray :=
  match d.expand file with
  | .error o => .error (.unseen file o)
  | .ok none => .error .homeless
  | .ok (some place) =>
      match d.find place with
      | .error .tooLong => .error (.unseen place .tooLong)
      | .error .denied => .error (.unseen place .denied)
      | .error _ => .error (.missing file)
      | .ok _ =>
          match d.read place with
          | .error o => .error (.unreadable file place o)
          | .ok content => .ok content

/-- The document of a file, which is a mapping; null counts as an empty one. -/
def documentOf (R : Document.Reader) (d : Directory) (file : String) : Except Failure Value :=
  match bytesOf d file with
  | .error e => .error e
  | .ok content =>
      match R.read content with
      | .error (.malformed detail) => .error (.malformed file detail)
      | .error (.interrupted text) => .error (.interrupted file text)
      | .error (.other name text) => .error (.broken name text)
      | .ok (.mapping es) => .ok (.mapping es)
      | .ok .null => .ok (.mapping [])
      | .ok _ => .error (.notMapping file)

/-- Replaces the layer of a source by the document of a file. -/
def loadFile (s : Settings) (R : Document.Reader) (d : Directory) (file : String)
    (source : Source) : Except Failure Settings :=
  match documentOf R d file with
  | .error e => .error e
  | .ok document => s.load document source file

/-- Empties the layer of a source.  The defaults stay. -/
def clear (s : Settings) (source : Source) : Settings :=
  if source = .defaults then s else s.replace source []

/-- Empties all layers but the defaults. -/
def clearAll (s : Settings) : Settings := Source.ascending.foldl clear s

end Settings

end IgnoreRules
