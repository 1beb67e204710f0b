/-
# Settings from the environment

Variables whose name starts with `IGNOREMATCH_` are settings.  The rest of the name, in small
letters, is a path whose parts stand between double underscores, and the text of the variable is
read as a truth value, an integer, a floating-point number, or, failing all these, as itself.
-/
import IgnoreRules.Settings

namespace IgnoreRules.Environment

/-! ## Values -/

/-- The value that the text of a variable stands for. -/
def valueOf (s : String) : Value :=
  let small := String.ofList (Text.lower s.toList)
  if small = "true" || small = "yes" then .bool true
  else if small = "false" || small = "no" then .bool false
  else
    match Number.int? s.toList with
    | some n => .int n
    | none =>
        match Number.float? s.toList with
        | some x => .float x
        | none => .text s

/-! ## Variables -/

/-- What the names of settings start with. -/
def mark : String := "IGNOREMATCH_"

/-- The path of a variable that is a setting. -/
def path? (name : String) : Option (List String) :=
  let rest := name.toList.drop mark.length
  if mark.toList.isPrefixOf name.toList && !rest.isEmpty then
    some (Text.split "__" (String.ofList (Text.lower rest)))
  else none

/-- Writes the variables that are settings one after the other. -/
def collect : Entries → List (String × String) → Except Blocked Entries
  | es, [] => .ok es
  | es, (name, value) :: rest =>
      match path? name with
      | none => collect es rest
      | some path =>
          match es.putPath (valueOf value) path with
          | .ok es => collect es rest
          | .error cause => .error cause

/-- Loads the variables that are settings, if there are any. -/
def load (s : Settings) (vars : List (String × String)) :
    Except Settings.Failure Settings :=
  match collect [] vars with
  | .error cause => .error (.blocked cause)
  | .ok [] => .ok s
  | .ok es => s.load (.mapping [(.text Key.root, .mapping es)]) .environment "environment"

/-- The settings of a program that starts in a directory: those of a file, if one is named, and
those of the environment. -/
def start (R : Document.Reader) (d : Directory) (file : Option String)
    (vars : List (String × String)) : Except Settings.Failure Settings :=
  match file with
  | none => load .initial vars
  | some "" => load .initial vars
  | some f =>
      match Settings.initial.loadFile R d f .user with
      | .ok s => load s vars
      | .error e => .error e

end IgnoreRules.Environment
