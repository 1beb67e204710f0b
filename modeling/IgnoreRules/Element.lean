/-
# Elements of a pattern

An element is a token of a pattern that reads one fixed stretch of the path: a literal text, one
whole segment, a character of a class, any character, or a separator.  This module says how each
element reads a path; `IgnoreRules.Token` says how it is written.
-/
import IgnoreRules.Matcher

namespace IgnoreRules

/-- The tokens of a pattern that leave no choice of where to stop. -/
inductive Element where
  /-- A literal run. -/
  | literal (w : List Char)
  /-- One path segment with the separators around it. -/
  | anySegment
  /-- A character class with its members. -/
  | choice (members : List Char)
  /-- Any one character. -/
  | option
  /-- A separator, which may be `trailing`, that is, the last thing in the pattern. -/
  | separator (trailing : Bool)
deriving DecidableEq, Repr

namespace Element

/-- Reads through the next separator, or to the end of the path.  The list holds what is left to
read at the cursor. -/
def skipSegment : List Char → Cursor → Cursor
  | [], c => c
  | x :: r, c => if x = '/' then c.advance else skipSegment r c.advance

/-- Reads a separator, a segment, and the separator behind it if there is one. -/
def segment : Matcher := fun c =>
  if c.current = some '/' then ⟨true, skipSegment c.advance.rest c.advance⟩ else ⟨false, c⟩

/-- Reads one of the listed characters. -/
def oneOf (members : List Char) : Matcher := fun c =>
  match c.current with
  | some x => if x ∈ members then ⟨true, c.advance⟩ else ⟨false, c⟩
  | none => ⟨false, c⟩

/-- Reads any one character. -/
def anyOne : Matcher := fun c => if c.atEnd then ⟨false, c⟩ else ⟨true, c.advance⟩

/-- Reads a separator.  The end of the path stands for a trailing separator. -/
def slash (trailing : Bool) : Matcher := fun c =>
  match c.current with
  | some x => if x = '/' then ⟨true, c.advance⟩ else ⟨false, c⟩
  | none => ⟨trailing, c⟩

/-- How an element reads a path. -/
def matcher : Element → Matcher
  | .literal w => Matcher.sequence w
  | .anySegment => segment
  | .choice members => oneOf members
  | .option => anyOne
  | .separator trailing => slash trailing

end Element

end IgnoreRules
