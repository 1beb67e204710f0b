/-
# Texts of the command line

What is printed on request, and in front of every complaint about the command line.
-/
import IgnoreRules.CommandLine.Switch

namespace IgnoreRules.CommandLine

/-- The name of the program. -/
def programName : String := "ignorematch"

/-- The version of the program. -/
def version : String := "1.0.0"

/-- Lines, each with its end. -/
def unlines (lines : List String) : String := String.join (lines.map (· ++ "\n"))

/-- How the program is called. -/
def usage : String := unlines [
  "usage: ignorematch [-h] [-v] [-c FILE] [--flags] [--debug]",
  "                   pattern PATH [PATH ...]"]

/-- What is printed when the version is asked for. -/
def versionText : String := unlines [programName ++ " " ++ version]

/-- What is printed when help is asked for. -/
def helpText : String := usage ++ unlines [
  "",
  "ignorematch - test paths against a gitignore-style pattern",
  "",
  "positional arguments:",
  "  pattern               Ignore-file pattern line",
  "  PATH                  Relative paths to test",
  "",
  "options:",
  "  -h, --help            show this help message and exit",
  "  -v, --version         show program's version number and exit",
  "  -c FILE, --config FILE",
  "                        Configuration file path (YAML format)",
  "",
  "output options:",
  "  --flags               Print the rule's is_dir and is_negate flags",
  "  --debug               Enable debug logging",
  "",
  "Examples:",
  "  # Which of these paths does the pattern exclude?",
  "  ignorematch '*.log' debug.log src/main.py",
  "",
  "  # Show the rule's directory and negation flags too",
  "  ignorematch --flags 'build/' build build/out.o",
  "",
  "Exit status is 0 when at least one path matched, 1 when none did",
  "and 2 on error.",
  "        "]

/-- What is printed when the command line is wrong. -/
def complaint (f : UsageFault) : String :=
  usage ++ unlines [programName ++ ": error: " ++ f.message]

end IgnoreRules.CommandLine
