/-
# Wildcards of a pattern

A wildcard can stop at several places of the path.  `Wildcard.splits` lists them, nearest first:
a star stops at any place up to the next separator, and `/**/` at any place behind the separator
it stands on.
-/
import IgnoreRules.Search

namespace IgnoreRules

/-- The tokens of a pattern that may stop at several places. -/
inductive Wildcard where
  /-- Any run of characters other than separators. -/
  | star
  /-- A separator and any number of segments. -/
  | manySegments
deriving DecidableEq, Repr

namespace Wildcard

/-- How a wildcard is written. -/
def text : Wildcard → List Char
  | .star => ['*']
  | .manySegments => ['/', '*', '*', '/']

/-- The cursor and those behind it, up to the one in front of the next separator.  The list holds
what is left to read at the cursor. -/
def withinSegment : List Char → Cursor → List Cursor
  | [], c => [c]
  | x :: r, c => if x = '/' then [c] else c :: withinSegment r c.advance

/-- The cursor and all those behind it.  The list holds what is left to read at the cursor. -/
def onward : List Char → Cursor → List Cursor
  | [], c => [c]
  | _ :: r, c => c :: onward r c.advance

/-- The places where a wildcard may stop, nearest first. -/
def splits : Wildcard → Cursor → List Cursor
  | .star, c => withinSegment c.rest c
  | .manySegments, c => if c.current = some '/' then onward c.advance.rest c.advance else []

end Wildcard

end IgnoreRules
