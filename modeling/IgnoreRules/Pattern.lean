/-
# Patterns

A pattern is matched as a search.  Its tokens fall into runs of elements with a wildcard between
one run and the next; the run in front of the first wildcard is the head of the search, every
other run is the steps of the wildcard before it, and the last run has to reach the end of the
path.
-/
import IgnoreRules.Token

namespace IgnoreRules.Pattern

/-! ## Runs of elements -/

/-- The elements in front of the first wildcard, and each wildcard with the elements behind it. -/
def runs : List Token → List Element × List (Wildcard × List Element)
  | [] => ([], [])
  | .element e :: ts => (e :: (runs ts).1, (runs ts).2)
  | .wildcard w :: ts => ([], (w, (runs ts).1) :: (runs ts).2)

@[simp] theorem runs_nil : runs [] = ([], []) := rfl

@[simp] theorem runs_element (e : Element) (ts : List Token) :
    runs (.element e :: ts) = (e :: (runs ts).1, (runs ts).2) := rfl

@[simp] theorem runs_wildcard (w : Wildcard) (ts : List Token) :
    runs (.wildcard w :: ts) = ([], (w, (runs ts).1) :: (runs ts).2) := rfl

/-! ## The matcher of a pattern -/

/-- Reads a run of elements. -/
def inner (es : List Element) : Matcher := Matcher.chain .positive (es.map Element.matcher)

/-- Reads the last run of a pattern, up to the end of the path. -/
def final (es : List Element) : Matcher :=
  Matcher.chain .positive (es.map Element.matcher ++ [.endOfInput])

/-- The branches of a search; the last one has to reach the end of the path. -/
def branches : List (Wildcard × List Element) → List Branch
  | [] => []
  | [(w, es)] => [⟨w.splits, final es⟩]
  | (w, es) :: rest => ⟨w.splits, inner es⟩ :: branches rest

/-- The matcher of a list of tokens: it succeeds only at the end of the path. -/
def matcher (ts : List Token) : Matcher :=
  match (runs ts).2 with
  | [] => final (runs ts).1
  | bs => Matcher.search (inner (runs ts).1) (branches bs)

/-- Reads a pattern from the cursor on, and gives its matcher and the cursor at its end. -/
def compile (c : Cursor) : Matcher × Cursor := (matcher (Token.readAll c).1, (Token.readAll c).2)

/-- Only spaces are left to read. -/
def isBlank (c : Cursor) : Bool := c.rest.all (· = ' ')

end IgnoreRules.Pattern
