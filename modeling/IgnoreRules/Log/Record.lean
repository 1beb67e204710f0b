/-
# Log records

What is logged has a severity, a message, and a context of named values.  The message of a record
shows its context behind a bar.  A context that cannot be shown cannot be logged.
-/
import IgnoreRules.Log.Severity
import IgnoreRules.Value.Shown

namespace IgnoreRules.Log

/-- Something to be logged. -/
structure Entry where
  severity : Severity
  message : String
  context : Entries

/-- The context behind a message, with the names and the shown values of its entries. -/
def contextText (context : Entries) : String :=
  Text.join " " (context.map fun e => Value.plain (.scalar e.1) ++ "=" ++ e.2.shown)

/-- A message with its context behind a bar, or alone when the context is empty. -/
def messageWith (message : String) (context : Entries) : String :=
  if context.isEmpty then message else message ++ " | " ++ contextText context

/-- One context laid over another.  Names keep the place where they come first. -/
def overlay (outer inner : Entries) : Entries :=
  inner.foldl (fun acc e => Entries.put e.1 e.2 acc) outer

end IgnoreRules.Log
