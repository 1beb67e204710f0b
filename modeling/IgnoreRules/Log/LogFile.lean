/-
# Log files

A log file that would grow too large makes room: its backups move up by one, the last of them is
lost, the file itself becomes the first backup, and a new file is begun.  Each step of this may
fail, and what was done until then stays.

* `Directory.rollOver` : the steps in which a log file makes room;
* `Directory.emit` : adds text to a log file, which may have to make room for it.

Several streams may lead to one log file.  Where one of them makes room the others stay with the
file they have, which is a backup then, until they make room themselves.
-/
import IgnoreRules.Directory

namespace IgnoreRules

/-- A step on files that may fail.  What it did until then stays. -/
abbrev FileStep := Directory → Directory × Bool

/-- One step, and a second one if the first did not fail. -/
def FileStep.andThen (f g : FileStep) : FileStep := fun d =>
  match f d with
  | (d, true) => g d
  | (d, false) => (d, false)

namespace Directory

/-! ## Backups -/

/-- The most bytes of a log file. -/
def maxLogBytes : Nat := 1048576

/-- How many backups of a log file are kept. -/
def maxBackups : Nat := 3

/-- The path of a backup of a log file. -/
def backup (path : List String) (k : Nat) : List String :=
  path.dropLast ++ [path.getLastD "" ++ "." ++ toString k]

/-! ## Steps -/

/-- Removes the file of a path, if one is there. -/
def clear (path : List String) : FileStep := fun d =>
  match d.seen? path with
  | none => (d, true)
  | some .directory => (d, false)
  | some (.file content) =>
      if d.allows path.dropLast .write then (d.remove path content, true) else (d, false)

/-- Moves what stands under a path, if anything does. -/
def move (source target : List String) : FileStep := fun d =>
  if (d.seen? source).isNone then (d, true)
  else
    match d.obstacle? (nameOf target) (wayDown [] target) with
    | some _ => (d, false)
    | none =>
        if d.allows source.dropLast .write then (d.rename source target, true) else (d, false)

/-- Moves what stands under a path, if anything does, to the place of a file. -/
def moveOver (source target : List String) : FileStep := fun d =>
  if (d.seen? source).isNone then (d, true) else (clear target).andThen (move source target) d

/-- Closes a stream. -/
def closing (s : Nat) : FileStep := fun d => (d.close s, true)

/-- Opens a stream anew to the log file of a path. -/
def reopen (path : List String) (s : Nat) : FileStep := fun d =>
  match d.openable (nameOf path) path with
  | .error _ => (d, false)
  | .ok () => ((d.make path).setStream s (.under path), true)

/-! ## Making room -/

/-- Moves the backups of a log file up, where `ks` are their numbers. -/
def moveBackups (path : List String) (ks : List Nat) : FileStep :=
  ks.foldr (fun k rest => (moveOver (backup path k) (backup path (k + 1))).andThen rest)
    fun d => (d, true)

/-- Makes the log file its own first backup, and begins a new one. -/
def rollOver (path : List String) (s : Nat) : FileStep :=
  (closing s).andThen <| (moveBackups path ((List.range' 1 (maxBackups - 1)).reverse)).andThen <|
    (clear (backup path 1)).andThen <| (move path (backup path 1)).andThen <| reopen path s

/-- The file of a stream would be too large with the text. -/
def isFull (d : Directory) (s : Nat) (text : String) : Bool :=
  (d.contentOf s).size + text.length ≥ maxLogBytes

/-- Makes room for the text, if the file of the stream would be too large with it.  A directory in
the place of the log file is left alone. -/
def makeRoom (path : List String) (s : Nat) (text : String) : FileStep := fun d =>
  if d.seen? path = some .directory then (d, true)
  else if d.isFull s text then rollOver path s d
  else (d, true)

/-- Opens the stream if it is closed. -/
def ensureOpen (path : List String) (s : Nat) : FileStep := fun d =>
  if d.stream s = .closed then reopen path s d else (d, true)

/-- Adds text to a log file through a stream. -/
def emit (path : List String) (s : Nat) (text : String) : FileStep :=
  (ensureOpen path s).andThen <| (makeRoom path s text).andThen fun d => (d.append s text, true)

end Directory

end IgnoreRules
