/-
# Quoted texts

A text is shown between quotes, with everything that would not be seen written as an escape.

* The quote is `'`, or `"` when the text holds a `'` and no `"`.
* The quote in use and the backslash are written behind a backslash.
* Line feed, carriage return and tab have escapes of their own; any other character that shows
  nothing is written by its code point, with two, four or eight digits.
-/
import IgnoreRules.Text.Printable

namespace IgnoreRules.Text

/-- The hexadecimal digits of a code point, at least `width` of them. -/
def hexDigits (width n : Nat) : List Char :=
  let ds := Nat.toDigits 16 n
  List.replicate (width - ds.length) '0' ++ ds

/-- A character as it is written between the given quotes. -/
def escape (quote c : Char) : List Char :=
  if c = quote || c = '\\' then ['\\', c]
  else if c = '\n' then ['\\', 'n']
  else if c = '\r' then ['\\', 'r']
  else if c = '\t' then ['\\', 't']
  else if isPrintable c then [c]
  else if c.toNat < 0x100 then '\\' :: 'x' :: hexDigits 2 c.toNat
  else if c.toNat < 0x10000 then '\\' :: 'u' :: hexDigits 4 c.toNat
  else '\\' :: 'U' :: hexDigits 8 c.toNat

/-- The quote that a text is shown with. -/
def quoteFor (s : List Char) : Char := if '\'' ∈ s && '"' ∉ s then '"' else '\''

/-- The text between quotes. -/
def quote (s : String) : String :=
  let cs := s.toList
  let q := quoteFor cs
  String.ofList (q :: cs.flatMap (escape q) ++ [q])

end IgnoreRules.Text
