/-
# Displaced cursors

Matching depends on what is left to read, and not on what stands in front of it.  A cursor at
position `j` of a text and the cursor in front of the text behind its first `j` characters have the
same left to read, and so have all cursors that they are moved to in the same way: they stay
displaced by `j`.

* `Displaced` : two cursors see the same, one of them `j` characters further on;
* `Element.isLocal_matcher`, `Wildcard.displaced_splits` : each token keeps the displacement;
* `Pattern.isLocal_matcher` : so does the whole search for a match;
* `Token.readAll_seek` : a pattern is read from the middle as what is left of it is read alone;
* `matching_depends_on_rest` : where a match begins and where its pattern begins does not matter.
-/
import IgnoreRules.Proofs.PatternReach
import IgnoreRules.Proofs.TokenSpelling
import Mathlib.Data.List.Forall2

namespace IgnoreRules

/-! ## The displacement -/

namespace Cursor

/-- The cursor `c` stands `j` characters further on than `d`, in a text that is that of `d` behind
its first `j` characters. -/
structure Displaced (j : Nat) (c d : Cursor) : Prop where
  text : c.text.drop j = d.text
  position : c.position = d.position + j

variable {j : Nat} {c d : Cursor}

/-- A place in a text and the start of what stands behind it. -/
theorem displaced_seek (text : List Char) (j : Nat) :
    Displaced j (seek text j) (start (text.drop j)) := ⟨rfl, (Nat.zero_add j).symm⟩

/-- **Displaced cursors see the same.** -/
theorem Displaced.rest_eq (h : Displaced j c d) : c.rest = d.rest := by
  rw [c.rest_eq, d.rest_eq, ← h.text, List.drop_drop, h.position, Nat.add_comm]

/-- Cursors with the same rest read the same character. -/
theorem Displaced.current_eq (h : Displaced j c d) : c.current = d.current := by
  rw [current, current, h.rest_eq]

theorem Displaced.atEnd_eq (h : Displaced j c d) : c.atEnd = d.atEnd := by
  rw [atEnd, atEnd, h.rest_eq]

/-- Reading one character keeps the displacement, also at the end of the text. -/
theorem Displaced.advance (h : Displaced j c d) : Displaced j c.advance d.advance where
  text := by rw [text_advance, text_advance, h.text]
  position := by
    rw [position_advance, position_advance, h.atEnd_eq, h.position]
    split <;> omega

/-- One of the cursors tells the other. -/
theorem Displaced.eq_seek (h : Displaced j c d) : c = seek c.text (d.position + j) :=
  eq_of_text_position rfl h.position

end Cursor

open Cursor (Displaced)

variable {j : Nat} {c d : Cursor}

/-! ## Matchers -/

/-- Both attempts succeed or both fail, and they stop at displaced cursors. -/
structure Attempt.Displaced (j : Nat) (a b : Attempt) : Prop where
  matched : a.matched = b.matched
  cursor : Cursor.Displaced j a.cursor b.cursor

/-- What two attempts reach is displaced, or they reach nothing. -/
theorem Attempt.Displaced.reached? {a b : Attempt} (h : a.Displaced j b) :
    Option.Rel (Cursor.Displaced j) a.reached? b.reached? := by
  rw [Attempt.reached?, Attempt.reached?, h.matched]
  split
  · exact .some h.cursor
  · exact .none

/-- Attempts that are displaced begin and end so. -/
theorem Attempt.displaced_ofOption {o p : Option Cursor} (h : Option.Rel (Cursor.Displaced j) o p)
    (hc : Cursor.Displaced j c d) : (ofOption o c).Displaced j (ofOption p d) := by
  cases h with
  | some h => exact ⟨rfl, h⟩
  | none => exact ⟨rfl, hc⟩

namespace Matcher

/-- The matcher goes by what is left to read: displaced cursors make displaced attempts. -/
def IsLocal (m : Matcher) : Prop :=
  ∀ {j : Nat} {c d : Cursor}, Displaced j c d → (m c).Displaced j (m d)

/-- A text is read from both cursors or from none. -/
theorem displaced_consume (w : List Char) (h : Displaced j c d) :
    Option.Rel (Displaced j) (consume w c) (consume w d) := by
  induction w generalizing c d with
  | nil => exact .some h
  | cons x w ih =>
    rw [consume_cons, consume_cons, h.current_eq]
    split
    · exact ih h.advance
    · exact .none

theorem isLocal_sequence (w : List Char) : (sequence w).IsLocal := fun h =>
  Attempt.displaced_ofOption (displaced_consume w h) h

/-- The end of the path is the same from both cursors, and so is the separator in front of it. -/
theorem isLocal_endOfInput : endOfInput.IsLocal := by
  intro j c d h
  by_cases hs : ∃ r, d.rest = '/' :: r
  · obtain ⟨r, hd⟩ := hs
    rw [endOfInput_of_slash (h.rest_eq.trans hd), endOfInput_of_slash hd]
    exact ⟨rfl, h.advance⟩
  · have hd : ∀ r, d.rest ≠ '/' :: r := fun r hr => hs ⟨r, hr⟩
    rw [endOfInput_of_ne_slash (h.rest_eq ▸ hd), endOfInput_of_ne_slash hd, h.rest_eq]
    exact ⟨rfl, h⟩

end Matcher

/-! ## Tokens -/

namespace Element

theorem displaced_skipSegment (s : List Char) (h : Displaced j c d) :
    Displaced j (skipSegment s c) (skipSegment s d) := by
  induction s generalizing c d with
  | nil => exact h
  | cons x s ih =>
    rw [skipSegment, skipSegment]
    split
    · exact h.advance
    · exact ih h.advance

/-- **How an element reads a path** depends on what is left of it. -/
theorem isLocal_matcher (e : Element) : e.matcher.IsLocal := by
  intro j c d h
  cases e with
  | literal w => exact Matcher.isLocal_sequence w h
  | anySegment =>
    rw [matcher, segment, segment, h.current_eq, h.advance.rest_eq]
    split
    · exact ⟨rfl, displaced_skipSegment _ h.advance⟩
    · exact ⟨rfl, h⟩
  | choice members =>
    rw [matcher, oneOf, oneOf, h.current_eq]
    cases d.current with
    | none => exact ⟨rfl, h⟩
    | some x =>
      dsimp only
      split
      · exact ⟨rfl, h.advance⟩
      · exact ⟨rfl, h⟩
  | option =>
    rw [matcher, anyOne, anyOne, h.atEnd_eq]
    split
    · exact ⟨rfl, h⟩
    · exact ⟨rfl, h.advance⟩
  | separator trailing =>
    rw [matcher, slash, slash, h.current_eq]
    cases d.current with
    | none => exact ⟨rfl, h⟩
    | some x =>
      dsimp only
      split
      · exact ⟨rfl, h.advance⟩
      · exact ⟨rfl, h⟩

end Element

namespace Wildcard

/-- The split points inside a segment are displaced one by one. -/
theorem displaced_withinSegment (s : List Char) (h : Displaced j c d) :
    List.Forall₂ (Displaced j) (withinSegment s c) (withinSegment s d) := by
  induction s generalizing c d with
  | nil => exact .cons h .nil
  | cons x s ih =>
    rw [withinSegment, withinSegment]
    split
    · exact .cons h .nil
    · exact .cons h (ih h.advance)

/-- The split points in all segments are displaced one by one. -/
theorem displaced_onward (s : List Char) (h : Displaced j c d) :
    List.Forall₂ (Displaced j) (onward s c) (onward s d) := by
  induction s generalizing c d with
  | nil => exact .cons h .nil
  | cons x s ih => exact .cons h (ih h.advance)

/-- **The places where a wildcard may stop** are displaced one by one. -/
theorem displaced_splits (w : Wildcard) (h : Displaced j c d) :
    List.Forall₂ (Displaced j) (w.splits c) (w.splits d) := by
  cases w with
  | star =>
    rw [splits, splits, h.rest_eq]
    exact displaced_withinSegment d.rest h
  | manySegments =>
    rw [splits, splits, h.current_eq, h.advance.rest_eq]
    split
    · exact displaced_onward _ h.advance
    · exact .nil

end Wildcard

/-! ## Patterns -/

section

variable {f : Cursor → Option Cursor}
  (hf : ∀ {c d}, Displaced j c d → Option.Rel (Displaced j) (f c) (f d))

include hf

/-- Going on from displaced cursors leads to displaced cursors. -/
theorem displaced_bind {o p : Option Cursor} (h : Option.Rel (Displaced j) o p) :
    Option.Rel (Displaced j) (o.bind f) (p.bind f) := by
  cases h with
  | some h => exact hf h
  | none => exact .none

/-- What is found first among displaced cursors is displaced. -/
theorem displaced_findSome? {cs ds : List Cursor} (h : List.Forall₂ (Displaced j) cs ds) :
    Option.Rel (Displaced j) (cs.findSome? f) (ds.findSome? f) := by
  induction h with
  | nil => exact .none
  | @cons c d cs ds hcd _ ih =>
    have hfound := hf hcd
    rw [List.findSome?_cons, List.findSome?_cons]
    generalize f c = o at hfound ⊢
    generalize f d = p at hfound ⊢
    cases hfound with
    | some h => exact .some h
    | none => exact ih

end

namespace Pattern

/-- Reading on token by token, the search stays displaced. -/
theorem displaced_reach (ts : List Token) (h : Displaced j c d) :
    Option.Rel (Displaced j) (reach ts c) (reach ts d) := by
  induction ts generalizing c d with
  | nil => exact (Matcher.isLocal_endOfInput h).reached?
  | cons t ts ih =>
    cases t with
    | element e => exact displaced_bind ih (e.isLocal_matcher h).reached?
    | wildcard w => exact displaced_findSome? ih (w.displaced_splits h)

/-- **The matcher of a pattern goes by what is left to read.** -/
theorem isLocal_matcher (ts : List Token) : (matcher ts).IsLocal := by
  intro j c d h
  rw [matcher_eq_reach, matcher_eq_reach]
  exact Attempt.displaced_ofOption (displaced_reach ts h) h

end Pattern

/-- What is left of a pattern is read from the middle as it is read alone, unless it starts with a
mark, which negates only in front of the whole pattern. -/
theorem Token.readAll_seek {t : List Char} {i : Nat} (h : t[i]? ≠ some '!') :
    (readAll (.seek t i)).1 = (readAll (.start (t.drop i))).1 := by
  have hcurrent : (t.drop i).head? ≠ some '!' := by rwa [List.head?_drop]
  have hmiddle : classify (.seek t i) ≠ .negate := fun hn =>
    hcurrent (classify_eq_negate_iff.1 hn).1
  have hfront : classify (.start (t.drop i)) ≠ .negate := fun hn =>
    hcurrent (classify_eq_negate_iff.1 hn).1
  exact (spells_iff_readAll hmiddle).1 (spells_readAll hfront)

namespace Pattern

/-- **Matching depends only on what is left to read.**  At any position of a path, also past its
end, a matcher does what it does in front of the rest of the path alone, and stops as much further
on.  And a pattern that is read from the middle, but not from a mark on, has the matcher of the rest
of the pattern alone. -/
theorem matching_depends_on_rest :
    (∀ (p : Cursor) (s : List Char) (j : Nat),
      let there := (compile p).1 (.seek s j)
      let front := (compile p).1 (.start (s.drop j))
      there.matched = front.matched ∧ there.cursor = .seek s (front.cursor.position + j)) ∧
    ∀ (t : List Char) (i : Nat), t[i]? ≠ some '!' →
      (compile (.seek t i)).1 = (compile (.start (t.drop i))).1 := by
  constructor
  · intro p s j there front
    have h : there.Displaced j front := isLocal_matcher _ (Cursor.displaced_seek s j)
    refine ⟨h.matched, ?_⟩
    have htext : there.cursor.text = s := by
      rcases matcher_eq_false_or_true (Token.readAll p).1 (.seek s j) with hm | ⟨e, hm, hle, -⟩
      · exact congrArg (fun a : Attempt => a.cursor.text) hm
      · exact (congrArg (fun a : Attempt => a.cursor.text) hm).trans (Cursor.text_eq_of_le hle)
    rw [h.cursor.eq_seek, htext]
  · intro t i h
    rw [compile, compile, Token.readAll_seek h]

/-- Behind `!x`, the pattern `/**/!c` is read as if it stood alone; behind `x`, it is matched by
`/b/!c/` as if that stood alone, and the match ends at position seven instead of six. -/
theorem matching_depends_on_rest_of_inner_mark :
    let t := ['!', 'x', '/', '*', '*', '/', '!', 'c']
    let s := ['x', '/', 'b', '/', '!', 'c', '/']
    t[2]? ≠ some '!' ∧ (compile (.seek t 2)).1 = (compile (.start (t.drop 2))).1 ∧
      ((compile (.seek t 2)).1 (.seek s 1)).matched = true ∧
      ((compile (.seek t 2)).1 (.seek s 1)).cursor = .seek s 7 := by
  intro t s
  have h : t[2]? ≠ some '!' := by decide
  have hpattern := matching_depends_on_rest.2 t 2 h
  obtain ⟨hmatched, hcursor⟩ := matching_depends_on_rest.1 (.seek t 2) s 1
  refine ⟨h, hpattern, hmatched.trans ?_, hcursor.trans ?_⟩
  · rw [hpattern]
    decide +kernel
  · rw [hpattern]
    decide +kernel

end Pattern

end IgnoreRules
