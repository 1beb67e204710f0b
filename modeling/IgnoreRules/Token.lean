/-
# Tokens of a pattern

A pattern is read from left to right, one token at a time.

* `Token.classify` names the kind of the token at a cursor from the next characters alone;
* `Token.read?` reads a token of a given kind, and fails where none stands;
* `Token.next` reads whatever stands at the cursor: a class that is never closed is ordinary text,
  and the negation mark at the start of the pattern is no token;
* `Token.readAll` reads the pattern to its end, which `Token.next_shorter` makes possible.
-/
import IgnoreRules.Element
import IgnoreRules.Wildcard

namespace IgnoreRules

/-- A token of a pattern. -/
inductive Token where
  | element (e : Element)
  | wildcard (w : Wildcard)
deriving DecidableEq, Repr

namespace Token

/-! ## Kinds -/

/-- What can stand at a place of a pattern. -/
inductive Kind where
  | literal
  | star
  | manySegments
  | anySegment
  | choice
  | option
  | separator
  | negate
deriving DecidableEq, Repr

/-- How a whole segment is written. -/
def anySegmentText : List Char := ['/', '*', '/']

/-- A literal run ends in front of these characters. -/
def isDelimiter (x : Char) : Bool := x = '*' || x = '/' || x = '[' || x = '?'

/-- The kind of the token at the cursor.  Only at the start of the pattern does `!` negate. -/
def classify (c : Cursor) : Kind :=
  match c.current with
  | some '!' => if c.position = 0 then .negate else .literal
  | some '/' =>
      if c.startsWith Wildcard.manySegments.text then .manySegments
      else if c.startsWith anySegmentText then .anySegment
      else .separator
  | some '*' => .star
  | some '[' => .choice
  | some '?' => .option
  | _ => .literal

/-! ## Reading one token -/

/-- Reads a literal run.  It takes its first character, whatever that is. -/
def readLiteral (c : Cursor) : Element × Cursor :=
  match c.rest with
  | [] => (.literal [], c)
  | x :: r =>
      let w := x :: r.takeWhile (fun y => !isDelimiter y)
      (.literal w, Cursor.advanceBy w.length c)

/-- Reads `/*/`. -/
def readAnySegment? (c : Cursor) : Option (Element × Cursor) :=
  (Matcher.consume anySegmentText c).map fun r => (.anySegment, r)

/-- Reads a class, whose members are taken literally up to the first `]`. -/
def readChoice? (c : Cursor) : Option (Element × Cursor) :=
  match c.rest with
  | '[' :: r =>
      if ']' ∈ r then
        let members := r.takeWhile (fun y => y ≠ ']')
        some (.choice members, Cursor.advanceBy (members.length + 2) c)
      else none
  | _ => none

/-- Reads `?`. -/
def readOption? (c : Cursor) : Option (Element × Cursor) :=
  if c.current = some '?' then some (.option, c.advance) else none

/-- Reads a separator.  Spaces between it and the end of the pattern belong to it. -/
def readSeparator? (c : Cursor) : Option (Element × Cursor) :=
  match c.rest with
  | '/' :: r =>
      if r.all (fun y => y = ' ') then
        some (.separator true, Cursor.advanceBy (r.length + 1) c)
      else some (.separator false, c.advance)
  | _ => none

/-- Reads a wildcard. -/
def readWildcard? (w : Wildcard) (c : Cursor) : Option (Wildcard × Cursor) :=
  (Matcher.consume w.text c).map fun r => (w, r)

/-- Reads a token of the given kind, if one stands at the cursor.  The negation mark is no
token. -/
def read? (k : Kind) (c : Cursor) : Option (Token × Cursor) :=
  match k with
  | .literal => some (.element (readLiteral c).1, (readLiteral c).2)
  | .star => (readWildcard? .star c).map fun (w, r) => (.wildcard w, r)
  | .manySegments => (readWildcard? .manySegments c).map fun (w, r) => (.wildcard w, r)
  | .anySegment => (readAnySegment? c).map fun (e, r) => (.element e, r)
  | .choice => (readChoice? c).map fun (e, r) => (.element e, r)
  | .option => (readOption? c).map fun (e, r) => (.element e, r)
  | .separator => (readSeparator? c).map fun (e, r) => (.element e, r)
  | .negate => none

/-! ## Reading the whole pattern -/

/-- Reads what stands at the cursor.  The negation mark is passed over, and where the token that
the next character announces is not there, that character is ordinary text. -/
def next (c : Cursor) : Option Token × Cursor :=
  match classify c with
  | .negate => (none, c.advance)
  | k =>
      match read? k c with
      | some (t, r) => (some t, r)
      | none => (some (.element (readLiteral c).1), (readLiteral c).2)

/-- A literal run takes at least one character where there is one. -/
theorem readLiteral_shorter {c : Cursor} (h : c.rest ≠ []) :
    (readLiteral c).2.rest.length < c.rest.length := by
  unfold readLiteral
  cases hc : c.rest with
  | nil => exact absurd hc h
  | cons x r =>
      simp only [hc, Cursor.rest_advanceBy, List.length_drop, List.length_cons]
      omega

/-- Reading a text that is not empty leaves less to read. -/
theorem consume_shorter {w : List Char} {c r : Cursor} (hw : w ≠ [])
    (h : Matcher.consume w c = some r) : r.rest.length < c.rest.length := by
  obtain ⟨⟨t, ht⟩, rfl⟩ := Matcher.consume_eq_some_iff.1 h
  have hpos : 0 < w.length := List.length_pos_iff.2 hw
  simp [← ht]
  omega

/-- A token takes at least one character where there is one. -/
theorem read?_shorter {k : Kind} {c r : Cursor} {t : Token} (hc : c.rest ≠ [])
    (h : read? k c = some (t, r)) : r.rest.length < c.rest.length := by
  have hpos : 0 < c.rest.length := List.length_pos_iff.2 hc
  cases k with
  | literal =>
      simp only [read?, Option.some.injEq, Prod.mk.injEq] at h
      exact h.2 ▸ readLiteral_shorter hc
  | star =>
      simp only [read?, readWildcard?, Option.map_map, Option.map_eq_some_iff] at h
      obtain ⟨s, hs, hr⟩ := h
      simp only [Function.comp_apply, Prod.mk.injEq] at hr
      exact hr.2 ▸ consume_shorter (by simp [Wildcard.text]) hs
  | manySegments =>
      simp only [read?, readWildcard?, Option.map_map, Option.map_eq_some_iff] at h
      obtain ⟨s, hs, hr⟩ := h
      simp only [Function.comp_apply, Prod.mk.injEq] at hr
      exact hr.2 ▸ consume_shorter (by simp [Wildcard.text]) hs
  | anySegment =>
      simp only [read?, readAnySegment?, Option.map_map, Option.map_eq_some_iff] at h
      obtain ⟨s, hs, hr⟩ := h
      simp only [Function.comp_apply, Prod.mk.injEq] at hr
      exact hr.2 ▸ consume_shorter (by simp [anySegmentText]) hs
  | choice =>
      simp only [read?, readChoice?, Option.map_eq_some_iff] at h
      obtain ⟨s, hs, hr⟩ := h
      split at hs
      · split at hs
        · simp only [Option.some.injEq] at hs
          simp only [← hs, Prod.mk.injEq] at hr
          rw [← hr.2, Cursor.rest_advanceBy, List.length_drop]
          omega
        · simp at hs
      · simp at hs
  | option =>
      simp only [read?, readOption?, Option.map_eq_some_iff] at h
      obtain ⟨s, hs, hr⟩ := h
      split at hs
      · simp only [Option.some.injEq] at hs
        simp only [← hs, Prod.mk.injEq] at hr
        rw [← hr.2, Cursor.rest_advance, List.length_tail]
        omega
      · simp at hs
  | separator =>
      simp only [read?, readSeparator?, Option.map_eq_some_iff] at h
      obtain ⟨s, hs, hr⟩ := h
      split at hs
      · split at hs
        · simp only [Option.some.injEq] at hs
          simp only [← hs, Prod.mk.injEq] at hr
          rw [← hr.2, Cursor.rest_advanceBy, List.length_drop]
          omega
        · simp only [Option.some.injEq] at hs
          simp only [← hs, Prod.mk.injEq] at hr
          rw [← hr.2, Cursor.rest_advance, List.length_tail]
          omega
      · simp at hs
  | negate => simp [read?] at h

/-- Whatever stands at the cursor, reading it leaves less to read. -/
theorem next_shorter {c : Cursor} (hc : c.rest ≠ []) :
    (next c).2.rest.length < c.rest.length := by
  have hpos : 0 < c.rest.length := List.length_pos_iff.2 hc
  unfold next
  split
  · simp only [Cursor.rest_advance, List.length_tail]
    omega
  · split
    · next h => exact read?_shorter hc h
    · exact readLiteral_shorter hc

/-- Reads the pattern from the cursor to its end: its tokens, and the cursor behind the last. -/
def readAll (c : Cursor) : List Token × Cursor :=
  match _h : c.rest with
  | [] => ([], c)
  | _ :: _ =>
      let tail := readAll (next c).2
      ((next c).1.toList ++ tail.1, tail.2)
termination_by c.rest.length
decreasing_by exact next_shorter (by simp [_h])

end Token

end IgnoreRules
