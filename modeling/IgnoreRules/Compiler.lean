/-
# Compiling with a cache

A compiler keeps the rules it made in a cache, so that a line compiled before gives the same rule
again.  Every rule it makes gets a serial number, by which it can be told from an equal one.
-/
import IgnoreRules.Cache.Options
import IgnoreRules.Log.Record
import IgnoreRules.Rule

namespace IgnoreRules

/-- A rule with the number of rules that its compiler made before. -/
structure Compiled where
  serial : Nat
  rule : Rule

/-- A compiler with its cache. -/
structure Compiler where
  cache : Cache (List Char) Compiled
  /-- How many rules the compiler has made. -/
  made : Nat

namespace Compiler

/-- A compiler with the cache that the settings describe. -/
def ofSettings (s : Settings) : Except Cache.OptionFault Compiler :=
  (Cache.ofSettings s).map fun cache => ⟨cache, 0⟩

/-- What is logged when a line was compiled before. -/
def hitEntry (line : List Char) : Log.Entry where
  severity := .debug
  message := "Rule cache hit"
  context := [(.text "pattern", .text (String.ofList line))]

/-- What is logged when a line gives a new rule. -/
def madeEntry (r : Rule) : Log.Entry where
  severity := .debug
  message := "Compiled rule"
  context := [
    (.text "pattern", .text (String.ofList r.pattern)),
    (.text "is_dir", .bool r.isDir),
    (.text "is_negate", .bool r.isNegate),
    (.text "blank", .bool (Pattern.isBlank (.start r.pattern)))]

/-- Compiles a line, or finds the rule it gave before, and says what is to be logged. -/
def compile (c : Compiler) (line : List Char) : Compiled × Log.Entry × Compiler :=
  match c.cache.get line with
  | (some r, cache) => (r, hitEntry line, { c with cache })
  | (none, cache) =>
      let r : Compiled := ⟨c.made, .compile line⟩
      (r, madeEntry r.rule, ⟨cache.put line r, c.made + 1⟩)

/-- Compiles lines one after the other. -/
def compileAll (c : Compiler) : List (List Char) → List Compiled × List Log.Entry × Compiler
  | [] => ([], [], c)
  | line :: lines =>
      let (r, entry, c) := c.compile line
      let (rs, entries, c) := compileAll c lines
      (r :: rs, entry :: entries, c)

/-- Forgets the rules made so far. -/
def clear (c : Compiler) : Compiler := { c with cache := c.cache.clear }

end Compiler

end IgnoreRules
