/-
# Arguments

A command line asks for help, for the version, or for a test of paths.  Its operands are the
pattern and one or more paths, all paths in one run of operands between switches.

* `Arguments.parse` reads a command line or says what is wrong with it.
-/
import IgnoreRules.CommandLine.Word

namespace IgnoreRules.CommandLine

/-- What a test of paths is given. -/
structure Arguments where
  pattern : String
  paths : List String
  /-- The file with settings. -/
  config : Option String
  /-- The report shows the flags of the rule. -/
  flags : Bool
  /-- Everything is logged. -/
  debug : Bool
deriving DecidableEq, Repr

/-- What a command line asks for. -/
inductive Request where
  | help
  | version
  | test (a : Arguments)
deriving DecidableEq, Repr

/-- What is known of the arguments after some of the words. -/
structure Draft where
  pattern : Option String
  paths : Option (List String)
  config : Option String
  flags : Bool
  debug : Bool
  /-- The words that there is no use for. -/
  strays : List String
deriving DecidableEq, Repr

namespace Draft

/-- The draft before the first word. -/
def empty : Draft := ⟨none, none, none, false, false, []⟩

/-! ## Operands -/

/-- Words that there is no use for. -/
def stray (d : Draft) (words : List String) : Draft := { d with strays := d.strays ++ words }

/-- The first operand of a run, with the divider next to it, and the words behind. -/
def firstOperand? : List Plain → Option (String × List Plain)
  | .operand t :: .divider :: run => some (t, run)
  | .operand t :: run => some (t, run)
  | .divider :: run => firstOperand? run
  | _ => none

/-- Takes a run of operands as the paths, if these are still to come.  One divider is left out. -/
def takePaths (d : Draft) (run : List Plain) : Draft :=
  if d.paths.isNone && run.any Plain.isOperand then
    { d with paths := some ((run.map Plain.text).erase Plain.dividerText) }
  else d.stray (run.map Plain.text)

/-- Takes a run of operands: the pattern, if it is still to come, and paths. -/
def takeRun (d : Draft) (run : List Plain) : Draft :=
  match d.pattern with
  | some _ => d.takePaths run
  | none =>
      match firstOperand? run with
      | some (t, run) => { d with pattern := some t }.takePaths run
      | none => d.takePaths run

/-! ## Switches -/

/-- Takes a switch without a value. -/
def takeAlone (d : Draft) : Switch → Draft
  | .flags => { d with flags := true }
  | .debug => { d with debug := true }
  | _ => d

/-- Takes a switch with its value.  Only the last value of a switch counts. -/
def takeValue (d : Draft) (v : Option String) : Switch → Draft
  | .config => { d with config := v }
  | _ => d

/-- Takes the switches of a word.  `value` is the text of the next word. -/
def takeBundle (d : Draft) (b : Bundle) (value : String) : Draft :=
  let d := b.switches.foldl takeAlone d
  match b.ending with
  | .nothing => d
  | .value s v => d.takeValue v s
  | .awaits s => d.takeValue (some value) s

/-- The request that a switch makes by itself, whatever the other words are. -/
def requestOf? : Switch → Option Request
  | .help => some .help
  | .version => some .version
  | _ => none

/-! ## All words -/

/-- The request that a finished draft makes. -/
def close (d : Draft) : Except UsageFault Request :=
  match d.pattern, d.paths with
  | some pattern, some paths =>
      if d.strays.isEmpty then .ok (.test ⟨pattern, paths, d.config, d.flags, d.debug⟩)
      else .error (.unrecognized d.strays)
  | some _, none => .error (.missing ["PATH"])
  | none, _ => .error (.missing ["pattern", "PATH"])

/-- Reads words from left to right; `run` holds the plain words since the last switch. -/
def readWords (d : Draft) (run : List Plain) : List Word → Except UsageFault Request
  | [] => (d.takeRun run).close
  | .plain p :: words => readWords d (run ++ [p]) words
  | .unknown t :: words => readWords ((d.takeRun run).stray [t]) [] words
  | .switch s short attached :: words =>
      match Bundle.read s short attached with
      | .error f => .error f
      | .ok b =>
          let d := d.takeRun run
          match b.ending, words with
          | .awaits _, .plain (.operand v) :: words =>
              match b.switches.findSome? requestOf? with
              | some r => .ok r
              | none => readWords (d.takeBundle b v) [] words
          | .awaits s, _ => .error (.noValue s)
          | _, words =>
              match b.switches.findSome? requestOf? with
              | some r => .ok r
              | none => readWords (d.takeBundle b "") [] words

end Draft

/-- Reads a command line. -/
def Arguments.parse (args : List String) : Except UsageFault Request :=
  match Word.readAll args with
  | .error f => .error f
  | .ok words => Draft.empty.readWords [] words

end IgnoreRules.CommandLine
