/-
# Where wildcards stop

The places where a wildcard may stop follow one another without a gap.  A star may stop at its
cursor and at every place behind it, up to the end of the segment, in front of the next separator.
`/**/` may stop right behind a separator and at every place from there on, the end of the text
included, and nowhere if no separator comes first.

* `Cursor.stretch` : the cursors of a text from one position to another;
* `EndsSegment` : where a segment ends, at a separator or with the text;
* `exists_withinSegment_eq_stretch`, `onward_eq_stretch` : what the two loops yield;
* `split_points_are_consecutive` : what the two wildcards yield, and in which order.
-/
import IgnoreRules.Proofs.TokenTakes
import Mathlib.Data.List.Range

namespace IgnoreRules

/-! ## Stretches of a text -/

namespace Cursor

/-- The cursors of a text from one position to another, both included, in their order. -/
def stretch (text : List Char) (first last : Nat) : List Cursor :=
  (List.range' first (last + 1 - first)).map (seek text)

theorem seek_self (c : Cursor) : seek c.text c.position = c := eq_of_text_position rfl rfl

theorem stretch_self (c : Cursor) : stretch c.text c.position c.position = [c] := by
  unfold stretch
  rw [Nat.add_sub_cancel_left, List.range'_one, List.map_singleton, seek_self]

/-- All cursors of a stretch are on its text. -/
theorem text_of_mem_stretch {text : List Char} {first last : Nat} {d : Cursor}
    (h : d ∈ stretch text first last) : d.text = text := by
  obtain ⟨n, -, rfl⟩ := List.mem_map.1 h
  rfl

/-- The positions in a stretch grow. -/
theorem pairwise_stretch (text : List Char) (first last : Nat) :
    (stretch text first last).Pairwise fun a b => a.position < b.position := by
  unfold stretch
  rw [List.pairwise_map]
  exact List.pairwise_lt_range'

/-- Going on inside the text is looking up a later position. -/
theorem advanceBy_eq_seek {c : Cursor} {n : Nat} (h : n ≤ c.rest.length) :
    advanceBy n c = seek c.text (c.position + n) := by
  apply eq_of_text_position
  · exact text_advanceBy n c
  · rw [position_advanceBy, Nat.min_eq_left h]
    rfl

/-- As long as there is something to read, cursors that read more and more make a stretch. -/
theorem map_advanceBy_eq_stretch {c : Cursor} {n : Nat} (h : n ≤ c.rest.length) :
    ((List.range (n + 1)).map fun i => advanceBy i c)
      = stretch c.text c.position (c.position + n) := by
  have hcount : c.position + n + 1 - c.position = n + 1 := by omega
  unfold stretch
  rw [hcount, List.range'_eq_map_range, List.map_map]
  apply List.map_congr_left
  intro i hi
  have hle : i ≤ n := Nat.le_of_lt_succ (List.mem_range.1 hi)
  exact advanceBy_eq_seek (Nat.le_trans hle h)

/-- What is left to read stands in the text, from the position on. -/
theorem getElem?_rest (c : Cursor) (n : Nat) : c.rest[n]? = c.text[c.position + n]? := by
  rw [c.rest_eq, List.getElem?_drop]

/-- The character at a cursor is the one that the text has at its position. -/
theorem current_eq_getElem? (c : Cursor) : c.current = c.text[c.position]? := by
  rw [current, List.head?_eq_getElem?, getElem?_rest, Nat.add_zero]

end Cursor

namespace Wildcard

open Cursor (stretch)

variable {c : Cursor} {text : List Char} {position stop : Nat}

/-! ## Where a segment ends -/

/-- The segment that goes on from a position ends at `stop`: at the first separator there or behind
it, or else where the text ends.  Behind the end of the text it ends where it begins. -/
structure EndsSegment (text : List Char) (position stop : Nat) : Prop where
  /-- It does not end before it begins. -/
  le : position ≤ stop
  /-- In front of its end stand characters other than separators. -/
  inside : ∀ i, position ≤ i → i < stop → ∃ x, text[i]? = some x ∧ x ≠ '/'
  /-- At its end stands a separator or nothing. -/
  ends : ∀ x, text[stop]? = some x → x = '/'

namespace EndsSegment

/-- A segment is over in front of a separator and where the text is over. -/
theorem here (h : ∀ x, text[position]? = some x → x = '/') :
    EndsSegment text position position where
  le := Nat.le_refl position
  inside := by
    intro i hle hlt
    exact absurd hlt (Nat.not_lt_of_le hle)
  ends := h

/-- A segment goes on through characters other than separators, up to a separator or the end. -/
theorem of_rest {w r : List Char} (h : c.rest = w ++ r) (hw : '/' ∉ w)
    (hr : ∀ x, r.head? = some x → x = '/') :
    EndsSegment c.text c.position (c.position + w.length) where
  le := Nat.le_add_right _ _
  inside := by
    intro i hle hlt
    obtain ⟨n, rfl⟩ := Nat.exists_eq_add_of_le hle
    have hn : n < w.length := Nat.lt_of_add_lt_add_left hlt
    refine ⟨w[n], ?_, ?_⟩
    · rw [← c.getElem?_rest, h, List.getElem?_append_left hn, List.getElem?_eq_getElem hn]
    · intro hsep
      exact hw (hsep ▸ List.getElem_mem hn)
  ends := by
    intro x hx
    rw [← c.getElem?_rest, h, List.getElem?_append_right (Nat.le_refl _), Nat.sub_self,
      ← List.head?_eq_getElem?] at hx
    exact hr x hx

/-- A segment ends once. -/
theorem unique {a b : Nat} (ha : EndsSegment text position a) (hb : EndsSegment text position b) :
    a = b := by
  -- the end of one cannot stand inside the other
  have hout : ∀ {s t : Nat}, EndsSegment text position s → EndsSegment text position t →
      ¬s < t := by
    intro s t hs ht hlt
    obtain ⟨x, hx, hne⟩ := ht.inside s hs.le hlt
    exact hne (hs.ends x hx)
  have hab := hout ha hb
  have hba := hout hb ha
  omega

/-- Behind the end of the text, a segment ends where it begins. -/
theorem eq_of_length_le (h : EndsSegment text position stop) (hle : text.length ≤ position) :
    stop = position := by
  refine h.unique (here ?_)
  intro x hx
  rw [List.getElem?_eq_none hle] at hx
  cases hx

end EndsSegment

/-! ## The two loops -/

/-- **The cursors up to the next separator** are those up to the end of the segment. -/
theorem exists_withinSegment_eq_stretch (c : Cursor) :
    ∃ stop, EndsSegment c.text c.position stop ∧
      withinSegment c.rest c = stretch c.text c.position stop := by
  have hcut : c.rest = c.rest.takeWhile (· ≠ '/') ++ c.rest.dropWhile (· ≠ '/') :=
    List.takeWhile_append_dropWhile.symm
  have hinside : '/' ∉ c.rest.takeWhile (· ≠ '/') := by
    intro hmem
    have hsep := List.all_eq_true.1 List.all_takeWhile _ hmem
    simp at hsep
  have hend : ∀ x, (c.rest.dropWhile (· ≠ '/')).head? = some x → x = '/' := by
    intro x hx
    have hsep := List.head?_dropWhile_not (· ≠ '/') c.rest
    rw [hx] at hsep
    simpa using hsep
  refine ⟨_, .of_rest hcut hinside hend, ?_⟩
  rw [withinSegment_eq rfl, Cursor.map_advanceBy_eq_stretch (List.takeWhile_prefix _).length_le]

/-- **The cursors up to the end of the text** are as many as there are characters left, and one. -/
theorem onward_eq_stretch (c : Cursor) :
    onward c.rest c = stretch c.text c.position (c.position + c.rest.length) := by
  rw [onward_eq rfl, Cursor.map_advanceBy_eq_stretch (Nat.le_refl _)]

/-! ## Split points -/

/-- `/**/` stops nowhere where no separator comes first. -/
theorem splits_manySegments_of_ne (h : c.text[c.position]? ≠ some '/') :
    manySegments.splits c = [] := by
  rw [splits, Cursor.current_eq_getElem?, if_neg h]

/-- Where a separator comes first, `/**/` stops behind it, up to the end of the text. -/
theorem splits_manySegments_of_eq (h : c.text[c.position]? = some '/') :
    manySegments.splits c = stretch c.text (c.position + 1) c.text.length := by
  obtain ⟨hlt, -⟩ := List.getElem?_eq_some_iff.1 h
  have hend : ¬c.atEnd = true := by
    rw [Cursor.atEnd_iff_length_le]
    omega
  have hlength : c.position + 1 + c.advance.rest.length = c.text.length := by
    rw [Cursor.rest_advance, List.length_tail, c.rest_eq, List.length_drop]
    omega
  rw [splits, Cursor.current_eq_getElem?, if_pos h, onward_eq_stretch, Cursor.text_advance,
    Cursor.position_advance, if_neg hend, hlength]

/-- The split points of a wildcard are a stretch of the text, which may be empty. -/
theorem exists_splits_eq_stretch (w : Wildcard) (c : Cursor) :
    ∃ first last, w.splits c = stretch c.text first last := by
  cases w with
  | star =>
    obtain ⟨stop, -, h⟩ := exists_withinSegment_eq_stretch c
    exact ⟨c.position, stop, h⟩
  | manySegments =>
    by_cases h : c.text[c.position]? = some '/'
    · exact ⟨_, _, splits_manySegments_of_eq h⟩
    · exact ⟨1, 0, splits_manySegments_of_ne h⟩

/-- **Split points are consecutive.**  From any cursor, behind the end of the text as well, a star
may stop exactly at the positions from that of the cursor up to the end of the segment, which is
the first separator there or behind it, or else the end of the text; at the end of the text or
behind it, it stops at the cursor alone.  `/**/` stops nowhere unless a separator stands at the
cursor, and otherwise exactly at the positions from the next one up to the end of the text.  Split
points stand in the text of the cursor, and their positions grow from each to the next. -/
theorem split_points_are_consecutive (c : Cursor) :
    (∃ stop, EndsSegment c.text c.position stop ∧
      star.splits c = stretch c.text c.position stop) ∧
    (c.text.length ≤ c.position → star.splits c = [c]) ∧
    (c.text[c.position]? ≠ some '/' → manySegments.splits c = []) ∧
    (c.text[c.position]? = some '/' →
      manySegments.splits c = stretch c.text (c.position + 1) c.text.length) ∧
    ∀ w : Wildcard, ((w.splits c).Pairwise fun a b => a.position < b.position) ∧
      ∀ d ∈ w.splits c, d.text = c.text := by
  obtain ⟨stop, hend, hstar⟩ := exists_withinSegment_eq_stretch c
  refine ⟨⟨stop, hend, hstar⟩, ?_, splits_manySegments_of_ne, splits_manySegments_of_eq, ?_⟩
  · intro hle
    have hstop := hend.eq_of_length_le hle
    show withinSegment c.rest c = [c]
    rw [hstar, hstop, Cursor.stretch_self]
  · intro w
    obtain ⟨first, last, hw⟩ := exists_splits_eq_stretch w c
    rw [hw]
    exact ⟨Cursor.pairwise_stretch _ _ _, fun d hd => Cursor.text_of_mem_stretch hd⟩

/-- In front of `ab/c` a star stops at three places and `/**/` at none; at the separator a star
stops there alone and `/**/` at the two places behind it. -/
example :
    let path := "ab/c".toList
    (star.splits (.seek path 0)).map Cursor.position = [0, 1, 2] ∧
      manySegments.splits (.seek path 0) = [] ∧
      (star.splits (.seek path 2)).map Cursor.position = [2] ∧
      (manySegments.splits (.seek path 2)).map Cursor.position = [3, 4] := by
  decide

end Wildcard

end IgnoreRules
