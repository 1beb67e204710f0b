/-
# Runs of the program

A run reads its command line, loads the settings, sets up the loggers, compiles the pattern and
reports on every path.

* `run` is the whole of it;
* `Status.code` is what the run exits with.
-/
import IgnoreRules.CommandLine.Help
import IgnoreRules.CommandLine.Session
import IgnoreRules.Compiler
import IgnoreRules.Report

namespace IgnoreRules.CommandLine

/-- How a run ends. -/
inductive Status where
  /-- A path matched, or what was asked for is printed. -/
  | success
  /-- No path matched. -/
  | noMatch
  | failure
  /-- A problem came up while another one was reported, and nobody took care of it. -/
  | crash
deriving DecidableEq, Repr

/-- The exit code. -/
def Status.code : Status → Nat
  | .success => 0
  | .noMatch => 1
  | .failure => 2
  | .crash => 1

/-- What a run shows. -/
structure Outcome where
  status : Status
  /-- What is written to the standard output. -/
  output : String
  /-- What is written to the standard error. -/
  errors : String
deriving DecidableEq, Repr

/-- The most elements that a list can have in the running program. -/
def maxLength : Nat := 9223372036854775807

/-- What is logged before paths are tested. -/
def testEntry (r : Rule) (paths : List String) : Log.Entry where
  severity := .info
  message := "Testing paths"
  context := [
    (.text "pattern", .text (String.ofList r.pattern)),
    (.text "count", .int (min paths.length maxLength : Nat))]

/-- Ends a run with a problem that nobody expected, which is logged.  `errors` is what the run has
written to the standard error before. -/
def abandon (u : Surroundings) (p : Log.Problem) (errors : String) (s : Session) :
    Outcome × Session :=
  let s := s.withLogger runLogger
  match s.report u runLogger "Unexpected error" p with
  | some (text, s) => (⟨.failure, "", errors ++ text⟩, s)
  | none => (⟨.crash, "", errors ++ unlines [unshowable.lines u.layout]⟩, s)

/-- Tests the paths with the loggers set up. -/
def test (u : Surroundings) (settings : Settings) (a : Arguments) (s : Session) :
    Outcome × Session :=
  match Compiler.ofSettings settings with
  | .error e => abandon u (problem e.name e.message) "" s
  | .ok compiler =>
      let (compiled, entry, _) := compiler.compile a.pattern.toList
      let r := compiled.rule
      match s.log u rulesLogger entry with
      | none => abandon u unshowable "" s
      | some (errors, s) =>
          match s.log u runLogger (testEntry r a.paths) with
          | none => abandon u unshowable errors s
          | some (more, s) =>
              (⟨if Report.anyMatched r a.paths then .success else .noMatch,
                unlines (Report.lines r a.paths a.flags), errors ++ more⟩, s)

/-- A run with a command line. -/
def run (u : Surroundings) (args : List String) (s : Session) : Outcome × Session :=
  match Arguments.parse args with
  | .error f => (⟨.failure, "", complaint f⟩, s)
  | .ok .help => (⟨.success, helpText, ""⟩, s)
  | .ok .version => (⟨.success, versionText, ""⟩, s)
  | .ok (.test a) =>
      match settingsOf u a s.directory with
      | .error e =>
          if e.code?.isSome then (⟨.failure, "", unlines ["Error: " ++ e.message]⟩, s)
          else abandon u (problem e.name e.message) "" s
      | .ok settings =>
          match s.setUp settings with
          | (some p, s) => abandon u p "" s
          | (none, s) => test u settings a s

end IgnoreRules.CommandLine
