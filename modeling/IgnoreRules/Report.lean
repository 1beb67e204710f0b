/-
# Reports

A report has one line for every path that a rule was tried on.
-/
import IgnoreRules.Rule
import IgnoreRules.Value.Shown

namespace IgnoreRules.Report

/-- The word that opens a line, at its full width. -/
def verdict (matched : Bool) : String := if matched then "match    " else "no-match "

/-- The flags of a rule as they stand behind a path. -/
def flagsText (r : Rule) : String :=
  "  is_dir=" ++ (Scalar.bool r.isDir).shown ++ " is_negate=" ++ (Scalar.bool r.isNegate).shown

/-- A line: the verdict, the path and, on demand, the flags of the rule. -/
def line (r : Rule) (path : String) (matched flags : Bool) : String :=
  verdict matched ++ " " ++ path ++ if flags then flagsText r else ""

/-- The lines for paths, in their order. -/
def lines (r : Rule) (paths : List String) (flags : Bool) : List String :=
  paths.map fun path => line r path (r.accepts path.toList) flags

/-- The rule matched one of the paths. -/
def anyMatched (r : Rule) (paths : List String) : Bool :=
  paths.any fun path => r.accepts path.toList

end IgnoreRules.Report
