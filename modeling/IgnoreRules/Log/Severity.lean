/-
# Severities of log records

A severity has a name, which is read in letters of any case, and a rank.  Levels of loggers are
plain ranks, which need not be those of a severity.
-/
import IgnoreRules.Text.LetterCase

namespace IgnoreRules.Log

/-- How serious a record is. -/
inductive Severity where
  | debug
  | info
  | warning
  | error
  | critical
deriving DecidableEq, Repr

namespace Severity

/-- All severities, in the order of their names. -/
def all : List Severity := [.critical, .debug, .error, .info, .warning]

/-- The name of a severity. -/
def name : Severity → String
  | .debug => "DEBUG"
  | .info => "INFO"
  | .warning => "WARNING"
  | .error => "ERROR"
  | .critical => "CRITICAL"

/-- The rank of a severity. -/
def rank : Severity → Nat
  | .debug => 10
  | .info => 20
  | .warning => 30
  | .error => 40
  | .critical => 50

/-- The severity with a name, given in letters of any case. -/
def ofName? (s : String) : Option Severity :=
  let capitals := String.ofList (Text.upper s.toList)
  all.find? fun v => v.name = capitals

/-- The severity with a rank. -/
def ofRank? (n : Int) : Option Severity := all.find? fun v => (v.rank : Int) = n

@[simp] theorem ofRank?_rank (v : Severity) : ofRank? v.rank = some v := by
  cases v <;> rfl

end Severity

end IgnoreRules.Log
