/-
# Switches of the command line

A switch has a short spelling, which is a dash and a letter, or a long one, which is two dashes and
a word, or both.  One switch takes a value.  Whatever is wrong with a command line is a
`UsageFault`, with its wording here.
-/
import IgnoreRules.Text.Quoted
import IgnoreRules.Text.Split

namespace IgnoreRules.CommandLine

/-- What can be asked for besides the pattern and the paths. -/
inductive Switch where
  | help
  | version
  /-- Names a file with settings. -/
  | config
  /-- Adds the flags of the rule to the report. -/
  | flags
  /-- Logs everything. -/
  | debug
deriving DecidableEq, Repr

namespace Switch

/-- All spellings, in the order in which messages list them. -/
def spellings : List (String × Switch) := [
  ("-h", .help), ("--help", .help),
  ("-v", .version), ("--version", .version),
  ("-c", .config), ("--config", .config),
  ("--flags", .flags),
  ("--debug", .debug)]

/-- The switch with a spelling. -/
def ofSpelling? (w : List Char) : Option Switch :=
  (spellings.find? fun e => e.1.toList = w).map Prod.snd

/-- The spellings that start with a text. -/
def startingWith (w : List Char) : List (String × Switch) :=
  spellings.filter fun e => w.isPrefixOf e.1.toList

/-- What messages call a switch: all its spellings. -/
def title (s : Switch) : String :=
  Text.join "/" ((spellings.filter fun e => e.2 = s).map Prod.fst)

/-- The switch is followed by a value. -/
def takesValue : Switch → Bool
  | .config => true
  | _ => false

end Switch

/-- What is wrong with a command line. -/
inductive UsageFault where
  /-- The word may stand for any of these switches. -/
  | ambiguous (word : String) (candidates : List String)
  /-- The switch lacks its value. -/
  | noValue (s : Switch)
  /-- The switch takes no value, but one is given. -/
  | unusedValue (s : Switch) (value : String)
  /-- These operands are missing. -/
  | missing (operands : List String)
  /-- There is no use for these words. -/
  | unrecognized (words : List String)
deriving DecidableEq, Repr

/-- The wording of a fault. -/
def UsageFault.message : UsageFault → String
  | .ambiguous word candidates =>
      "ambiguous option: " ++ word ++ " could match " ++ Text.join ", " candidates
  | .noValue s => "argument " ++ s.title ++ ": expected one argument"
  | .unusedValue s value =>
      "argument " ++ s.title ++ ": ignored explicit argument " ++ Text.quote value
  | .missing operands =>
      "the following arguments are required: " ++ Text.join ", " operands
  | .unrecognized words => "unrecognized arguments: " ++ Text.join " " words

end IgnoreRules.CommandLine
