/-
# Lines of a text

A text is broken into lines by line feeds, carriage returns, and the characters that other scripts
use for the purpose.  Where a text in quotes goes on over several lines, the lines are joined: the
blanks next to a break count for nothing, a single plain break becomes a space, and of several
breaks in a row the first is dropped if it is a plain one.

* `Text.breakOf?` says what a character stands for as a line break;
* `Text.joinLines` joins the lines of a text.
-/

namespace IgnoreRules.Text

/-! ## Line breaks -/

/-- What a line break stands for: a plain one for a line feed, the two separators of lines and
paragraphs for themselves. -/
def breakOf? (c : Char) : Option Char :=
  if c = '\n' || c = '\r' || c = '\u0085' then some '\n'
  else if c = '\u2028' || c = '\u2029' then some c
  else none

/-- The character breaks a line. -/
def isBreak (c : Char) : Bool := (breakOf? c).isSome

/-- The first line of a text, and the others, each with the break before it. -/
def lines : List Char → List Char × List (Char × List Char)
  | [] => ([], [])
  | c :: cs =>
      let (line, more) := lines cs
      match breakOf? c with
      | some b => ([], (b, line) :: more)
      | none => (c :: line, more)

/-! ## Joining -/

/-- A blank within a line. -/
def isIndent (c : Char) : Bool := c = ' ' || c = '\t'

/-- A line without the blanks at its end. -/
def trimEnd (line : List Char) : List Char := (line.reverse.dropWhile isIndent).reverse

/-- Joins a line with those behind it.  `again` says that a break stands right before the line. -/
def joinFrom (again : Bool) (line : List Char) : List (Char × List Char) → List Char
  | [] => line
  | (b, next) :: more =>
      let next := next.dropWhile isIndent
      let many := next.isEmpty && !more.isEmpty
      let mark := if again || b ≠ '\n' then [b] else if many then [] else [' ']
      trimEnd line ++ mark ++ joinFrom many next more

/-- Joins the lines of a text. -/
def joinLines (s : List Char) : List Char := joinFrom false (lines s).1 (lines s).2

end IgnoreRules.Text
