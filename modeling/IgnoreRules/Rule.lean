/-
# Rules

A rule is one compiled line of an ignore file.  Every line compiles: a blank line gives a rule
that matches nothing, and whatever is malformed in a line is taken as ordinary text.
-/
import IgnoreRules.Pattern

namespace IgnoreRules

/-- A compiled line. -/
structure Rule where
  /-- The line as given. -/
  pattern : List Char
  /-- How the rule reads a path. -/
  matcher : Matcher
  /-- The line ends with a separator. -/
  isDir : Bool
  /-- The line starts with the negation mark. -/
  isNegate : Bool

namespace Rule

/-- The matcher of a line. -/
def matcherOf (line : List Char) : Matcher :=
  if Pattern.isBlank (.start line) then .negative else (Pattern.compile (.start line)).1

/-- Compiles a line. -/
def compile (line : List Char) : Rule where
  pattern := line
  matcher := matcherOf line
  isDir := (Cursor.start line).last = some '/'
  isNegate := (Cursor.start line).first = some '!'

@[simp] theorem pattern_compile (line : List Char) : (compile line).pattern = line := rfl

/-- The rule matches the whole path. -/
def accepts (r : Rule) (path : List Char) : Bool := (r.matcher (.start path)).matched

/-- Rules are compared by their lines and flags. -/
instance : BEq Rule where
  beq a b := a.pattern = b.pattern && a.isDir = b.isDir && a.isNegate = b.isNegate

end Rule

end IgnoreRules
