/-
# The program

The outer layer: it looks at the files, the variables and the clock, makes a run, and carries out
what the run did to files.  Only the files that the run can ask for are looked at.  Documents are
plain ones.
-/
import IgnoreRules.CommandLine.Run
import Std.Time.Format

namespace IgnoreRules.Program

open CommandLine

/-! ## Looking at files -/

/-- What came of an attempt to read a file. -/
inductive Sight where
  | file (content : ByteArray)
  | directory
  | nothing
  /-- The program may not look. -/
  | denied

/-- The error code for reading a directory as a file. -/
def isDirectoryCode : UInt32 := 21

/-- Tries to read the file of a name. -/
def attempt (name : String) : IO Sight := do
  try
    return .file (← IO.FS.readBinFile name)
  catch
    | .noFileOrDirectory .. => return .nothing
    | .invalidArgument .. => return .nothing
    | .permissionDenied .. => return .denied
    | .inappropriateType _ code _ => return if code = isDirectoryCode then .directory else .nothing
    | e => throw e

/-- The directory with what stands under a path, and with what the program may not do there. -/
def look (d : Directory) (path : List String) : IO Directory := do
  match ← attempt (Directory.nameOf path) with
  | .file content => return d.write path (.file content)
  | .directory => return d.write path .directory
  | .nothing => return d
  | .denied =>
      -- either the directory around may not be searched, or what stands there may not be read
      match ← attempt (Directory.nameOf path.dropLast ++ "/.") with
      | .denied => return { d with refused := (path.dropLast, .search) :: d.refused }
      | _ =>
          let n : Node :=
            match ← attempt (Directory.nameOf path ++ "/.") with
            | .nothing => .file .empty
            | _ => .directory
          return { d.write path n with refused := (path, .read) :: d.refused }

/-- Looks at everything that a name leads through. -/
def explore (d : Directory) (name : String) : IO Directory := (d.places name).foldlM look d

/-- Makes sure that a log file is there, as the run will do, or notes that this is not allowed. -/
def touch (d : Directory) (path : List String) : IO Directory := do
  try
    IO.FS.withFile (Directory.nameOf path) .append fun _ => pure ()
    look d path
  catch
    | .permissionDenied .. =>
        let place := if (d.node? path).isSome then path else path.dropLast
        return { d with refused := (place, .write) :: d.refused }
    | _ => return d

/-! ## Surroundings -/

/-- The variables of the environment, in their order. -/
def environment : IO (List (String × String)) := do
  let definitions := Text.split "\x00" (← IO.FS.readFile "/proc/self/environ")
  return definitions.filterMap fun definition =>
    match Text.split "=" definition with
    | name :: value :: rest => some (name, Text.join "=" (value :: rest))
    | _ => none

/-- The users that the system knows, with their numbers and their home directories. -/
def users : IO (List (String × String × String)) := do
  let entries := Text.split "\n" (← IO.FS.readFile "/etc/passwd")
  return entries.filterMap fun entry =>
    match Text.split ":" entry with
    | [name, _, number, _, _, home, _] => some (name, number, home)
    | _ => none

/-- The number of the program's user. -/
def ownNumber : IO (Option String) := do
  let lines := Text.split "\n" (← IO.FS.readFile "/proc/self/status")
  return lines.findSome? fun line =>
    match Text.split "\t" line with
    | "Uid:" :: number :: _ => some number
    | _ => none

/-- The home directories of all users, where that of the program's user is the one of the
environment if there is one. -/
def homes (vars : List (String × String)) : IO (List (String × String)) := do
  let users ← users
  let number ← ownNumber
  let own := (vars.lookup "HOME").or
    ((users.find? fun u => some u.2.1 = number).map fun u => u.2.2)
  return (own.map ("", ·)).toList ++ users.map fun u => (u.1, u.2.2)

/-- The time of the run, as records show it. -/
def stamp : IO String := do
  return (← Std.Time.PlainDateTime.now).format "uuuu-MM-dd HH:mm:ss"

/-- The directory with the files that a run with these arguments can ask for. -/
def survey (u : Surroundings) (a : Arguments) (d : Directory) : IO Directory := do
  let d ←
    match a.config.map d.expand with
    | some (.ok (some place)) => explore d place
    | _ => pure d
  match (settingsOf u a d).toOption.bind logFile? with
  | none => return d
  | some file =>
      let path := d.fullPath file
      let d ← explore d (d.fullName file)
      let d ← touch d path
      (List.range' 1 Directory.maxBackups).foldlM (fun d k => look d (Directory.backup path k)) d

/-! ## Changing files -/

/-- Does to the files what the run did. -/
def carryOut : FileChange → IO Unit
  | .make path => IO.FS.withFile (Directory.nameOf path) .append fun _ => pure ()
  | .append path text =>
      IO.FS.withFile (Directory.nameOf path) .append fun h => h.putStr text
  | .move source target => IO.FS.rename (Directory.nameOf source) (Directory.nameOf target)
  | .remove path => IO.FS.removeFile (Directory.nameOf path)

end IgnoreRules.Program

open IgnoreRules IgnoreRules.CommandLine in
/-- Makes one run with the given arguments. -/
def main (args : List String) : IO UInt32 := do
  let vars ← Program.environment
  let layout : Log.Layout := {
    stamp := ← Program.stamp
    trace := "Traceback (most recent call last):"
    lost := "--- Logging error ---\n" }
  let u : Surroundings := ⟨vars, layout, Document.plain⟩
  let here : Directory := {
    base := Directory.components (← IO.currentDir).toString
    nodes := []
    homes := ← Program.homes vars }
  let d ←
    match Arguments.parse args with
    | .ok (.test a) => Program.survey u a here
    | _ => pure here
  let (outcome, s) := run u args ⟨d, .empty⟩
  s.directory.changes.forM Program.carryOut
  IO.print outcome.output
  IO.eprint outcome.errors
  return outcome.status.code.toUInt32
