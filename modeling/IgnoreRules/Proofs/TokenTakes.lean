/-
# What the tokens of a pattern take

A token takes some text from the front of a path and leaves the rest: `t.Takes s r` says that `t`
can read `s` and leave `r`.  Whether it can is a matter of the characters alone.  This module shows
that the cursors a token leads to are exactly those behind a text that it takes.

* `reached_matcher_iff` : an element leads to the one cursor that leaves what it leaves;
* `withinSegment_eq`, `onward_eq` : the split points of a wildcard, written as a range;
* `mem_splits_iff` : a wildcard splits at every cursor that leaves what it can leave.
-/
import IgnoreRules.Proofs.Lookahead

namespace IgnoreRules

/-! ## Elements -/

namespace Element

/-- The element reads `s` and leaves `r`. -/
def Takes : Element → List Char → List Char → Prop
  | .literal w, s, r => s = w ++ r
  | .anySegment, s, r =>
      ∃ w, '/' ∉ w ∧ (s = '/' :: (w ++ '/' :: r) ∨ s = '/' :: w ∧ r = [])
  | .choice members, s, r => ∃ x ∈ members, s = x :: r
  | .option, s, r => ∃ x, s = x :: r
  | .separator trailing, s, r => s = '/' :: r ∨ trailing = true ∧ s = [] ∧ r = []

/-- What an element leaves ends what it was given. -/
theorem Takes.suffix {e : Element} {s r : List Char} (h : e.Takes s r) : r <:+ s := by
  cases e with
  | literal w => exact ⟨w, h.symm⟩
  | anySegment =>
    obtain ⟨w, -, rfl | ⟨rfl, rfl⟩⟩ := h
    · exact ⟨'/' :: (w ++ ['/']), by simp⟩
    · exact List.nil_suffix
  | choice members =>
    obtain ⟨x, -, rfl⟩ := h
    exact List.suffix_cons x r
  | option =>
    obtain ⟨x, rfl⟩ := h
    exact List.suffix_cons x r
  | separator trailing =>
    rcases h with rfl | ⟨-, rfl, rfl⟩
    · exact List.suffix_cons '/' r
    · exact List.suffix_refl []

variable {c d : Cursor}

theorem le_skipSegment (s : List Char) (c : Cursor) : c ≤ skipSegment s c := by
  induction s generalizing c with
  | nil => exact Cursor.le_refl c
  | cons x s ih =>
    rw [skipSegment]
    split
    · exact Cursor.le_advance c
    · exact Cursor.le_trans (Cursor.le_advance c) (ih c.advance)

/-- What stands behind the next separator, if there is one. -/
def behindSegment (s : List Char) : List Char := (s.dropWhile (· ≠ '/')).tail

/-- What is in the same segment does not matter for what is behind it. -/
theorem behindSegment_segment_append {w : List Char} (hw : '/' ∉ w) (s : List Char) :
    behindSegment (w ++ s) = behindSegment s := by
  rw [behindSegment, List.dropWhile_append_of_pos, behindSegment]
  intro x hx
  simpa using fun h : x = '/' => hw (h ▸ hx)

/-- Behind a segment comes what follows its separator. -/
theorem behindSegment_append {w : List Char} (hw : '/' ∉ w) (r : List Char) :
    behindSegment (w ++ '/' :: r) = r := by
  rw [behindSegment_segment_append hw, behindSegment, List.dropWhile_cons_of_neg (by simp),
    List.tail_cons]

theorem behindSegment_of_not_mem {w : List Char} (hw : '/' ∉ w) : behindSegment w = [] := by
  have h := behindSegment_segment_append hw []
  rwa [List.append_nil] at h

/-- Skipping a segment leaves what stands behind the next separator. -/
theorem rest_skipSegment {s : List Char} (h : c.rest = s) :
    (skipSegment s c).rest = behindSegment s := by
  induction s generalizing c with
  | nil => exact h
  | cons x s ih =>
    rw [skipSegment, behindSegment]
    by_cases hx : x = '/'
    · rw [if_pos hx, Cursor.rest_advance, h, List.dropWhile_cons_of_neg (by simpa using hx)]
    · rw [if_neg hx, List.dropWhile_cons_of_pos (by simpa using hx)]
      exact ih (by rw [Cursor.rest_advance, h, List.tail_cons])

/-- A segment takes its separator and all that stands up to the next one and with it. -/
theorem takes_anySegment_iff {s r : List Char} :
    anySegment.Takes s r ↔ ∃ t, s = '/' :: t ∧ r = behindSegment t := by
  constructor
  · rintro ⟨w, hw, rfl | ⟨rfl, rfl⟩⟩
    · exact ⟨_, rfl, (behindSegment_append hw r).symm⟩
    · exact ⟨_, rfl, (behindSegment_of_not_mem hw).symm⟩
  · rintro ⟨t, rfl, rfl⟩
    by_cases ht : '/' ∈ t
    · obtain ⟨w, u, rfl, hw⟩ := List.eq_append_cons_of_mem ht
      rw [behindSegment_append hw]
      exact ⟨w, hw, Or.inl rfl⟩
    · rw [behindSegment_of_not_mem ht]
      exact ⟨t, ht, Or.inr ⟨rfl, rfl⟩⟩

/-- An element stops at its cursor or behind it, whether it succeeds or not. -/
theorem le_cursor_matcher (e : Element) (c : Cursor) : c ≤ (e.matcher c).cursor := by
  cases e with
  | literal w =>
    rw [matcher]
    by_cases hw : w <+: c.rest
    · rw [Matcher.sequence_of_prefix_rest hw]
      exact Cursor.le_advanceBy _ c
    · rw [Matcher.sequence_of_not_prefix_rest hw]
      exact Cursor.le_refl c
  | anySegment =>
    rw [matcher, segment]
    split
    · exact Cursor.le_trans (Cursor.le_advance c) (le_skipSegment _ c.advance)
    · exact Cursor.le_refl c
  | choice members =>
    rw [matcher, oneOf]
    split
    · split
      · exact Cursor.le_advance c
      · exact Cursor.le_refl c
    · exact Cursor.le_refl c
  | option =>
    rw [matcher, anyOne]
    split
    · exact Cursor.le_refl c
    · exact Cursor.le_advance c
  | separator trailing =>
    rw [matcher, slash]
    split
    · split
      · exact Cursor.le_advance c
      · exact Cursor.le_refl c
    · exact Cursor.le_refl c

/-- An element takes a text where it succeeds on it, and leaves what is left where it stopped. -/
theorem takes_iff (e : Element) (c : Cursor) (r : List Char) :
    e.Takes c.rest r ↔ (e.matcher c).matched = true ∧ r = (e.matcher c).cursor.rest := by
  -- each element decides by what is left to read, most by its first character alone
  cases e with
  | literal w =>
    rw [matcher]
    by_cases hw : w <+: c.rest
    · rw [Matcher.sequence_of_prefix_rest hw]
      obtain ⟨s, hs⟩ := hw
      simp [Takes, ← hs, eq_comm]
    · rw [Matcher.sequence_of_not_prefix_rest hw]
      exact ⟨fun hs => absurd ⟨r, Eq.symm hs⟩ hw, fun h => absurd h.1 (by simp)⟩
  | anySegment =>
    rw [takes_anySegment_iff, matcher, segment, Cursor.current]
    cases hs : c.rest with
    | nil => simp
    | cons x s =>
      by_cases hx : x = '/'
      · have hskip : (skipSegment c.advance.rest c.advance).rest = behindSegment s := by
          rw [rest_skipSegment rfl, Cursor.rest_advance, hs, List.tail_cons]
        rw [List.head?_cons, hx, if_pos rfl]
        simp only [hskip, List.cons.injEq, true_and, exists_eq_left']
      · simp [hx]
  | choice members =>
    rw [matcher, oneOf, Cursor.current]
    cases hs : c.rest with
    | nil => simp [Takes]
    | cons x s =>
      by_cases hx : x ∈ members
      · rw [List.head?_cons]
        simp only [Takes, if_pos hx, Cursor.rest_advance, hs, List.tail_cons, true_and]
        constructor
        · rintro ⟨y, -, hy⟩
          exact (List.cons.inj hy).2.symm
        · rintro rfl
          exact ⟨x, hx, rfl⟩
      · rw [List.head?_cons]
        simp only [Takes, if_neg hx, Bool.false_eq_true, false_and, iff_false]
        rintro ⟨y, hy, hxy⟩
        exact hx ((List.cons.inj hxy).1 ▸ hy)
  | option =>
    rw [matcher, anyOne, Cursor.atEnd]
    cases hs : c.rest with
    | nil => simp [Takes]
    | cons x s => simp [Takes, hs, eq_comm]
  | separator trailing =>
    rw [matcher, slash, Cursor.current]
    cases hs : c.rest with
    | nil => simp [Takes, hs]
    | cons x s =>
      by_cases hx : x = '/'
      · simp [Takes, hx, hs, eq_comm]
      · simp [Takes, hx]

/-- **An element leads to the one cursor behind a text that it takes.** -/
theorem reached_matcher_iff {e : Element} {c d : Cursor} :
    (e.matcher c).reached? = some d ↔ c ≤ d ∧ e.Takes c.rest d.rest := by
  rw [takes_iff, Attempt.reached?]
  constructor
  · intro h
    obtain ⟨hm, hd⟩ := Option.ite_none_right_eq_some.1 h
    obtain rfl : (e.matcher c).cursor = d := Option.some.inj hd
    exact ⟨le_cursor_matcher e c, hm, rfl⟩
  · rintro ⟨hle, hm, hr⟩
    rw [if_pos hm, Cursor.eq_of_le_of_rest_eq hle (le_cursor_matcher e c) hr]

end Element

/-! ## Wildcards -/

namespace Wildcard

/-- The wildcard can read `s` and leave `r`. -/
def Takes : Wildcard → List Char → List Char → Prop
  | .star, s, r => ∃ w, '/' ∉ w ∧ s = w ++ r
  | .manySegments, s, r => ∃ w, s = '/' :: (w ++ r)

/-- What a wildcard leaves ends what it was given. -/
theorem Takes.suffix {w : Wildcard} {s r : List Char} (h : w.Takes s r) : r <:+ s := by
  cases w with
  | star =>
    obtain ⟨u, -, rfl⟩ := h
    exact List.suffix_append u r
  | manySegments =>
    obtain ⟨u, rfl⟩ := h
    exact ⟨'/' :: u, by simp⟩

/-- The cursors up to the next separator, counted from the first. -/
theorem withinSegment_eq {s : List Char} {c : Cursor} (h : c.rest = s) :
    withinSegment s c
      = (List.range ((s.takeWhile (· ≠ '/')).length + 1)).map fun n => Cursor.advanceBy n c := by
  induction s generalizing c with
  | nil => rfl
  | cons x s ih =>
    rw [withinSegment]
    by_cases hx : x = '/'
    · rw [if_pos hx, List.takeWhile_cons_of_neg (by simpa using hx)]
      rfl
    · rw [if_neg hx, List.takeWhile_cons_of_pos (by simpa using hx), List.length_cons,
        ih (by rw [Cursor.rest_advance, h, List.tail_cons]), List.range_succ_eq_map (n := _ + 1),
        List.map_cons, List.map_map]
      rfl

/-- The cursors up to the end, counted from the first. -/
theorem onward_eq {s : List Char} {c : Cursor} (h : c.rest = s) :
    onward s c = (List.range (s.length + 1)).map fun n => Cursor.advanceBy n c := by
  induction s generalizing c with
  | nil => rfl
  | cons x s ih =>
    rw [onward, List.length_cons, ih (by rw [Cursor.rest_advance, h, List.tail_cons]),
      List.range_succ_eq_map (n := _ + 1), List.map_cons, List.map_map]
    rfl

variable {c d : Cursor}

/-- Behind `c` up to the next separator stands what leaves a text without separators. -/
theorem mem_withinSegment_iff :
    d ∈ withinSegment c.rest c ↔ c ≤ d ∧ ∃ w, '/' ∉ w ∧ c.rest = w ++ d.rest := by
  rw [withinSegment_eq rfl, List.mem_map]
  constructor
  · rintro ⟨n, hn, rfl⟩
    refine ⟨Cursor.le_advanceBy n c, c.rest.take n, fun hmem => ?_, ?_⟩
    · -- what is taken stops in front of the next separator
      have hpre : c.rest.take n <+: c.rest.takeWhile (· ≠ '/') := by
        refine List.prefix_of_prefix_length_le (List.take_prefix n _)
          (List.takeWhile_prefix _) ?_
        rw [List.length_take]
        have := List.mem_range.1 hn
        omega
      have hsep := List.all_eq_true.1 List.all_takeWhile _ (hpre.subset hmem)
      simp at hsep
    · rw [Cursor.rest_advanceBy, List.take_append_drop]
  · rintro ⟨hle, w, hw, hr⟩
    have hlen : w.length ≤ (c.rest.takeWhile (· ≠ '/')).length := by
      rw [hr, List.takeWhile_append_of_pos, List.length_append]
      · exact Nat.le_add_right _ _
      · intro x hx
        simpa using fun h : x = '/' => hw (h ▸ hx)
    refine ⟨w.length, List.mem_range.2 (Nat.lt_succ_of_le hlen), ?_⟩
    refine Cursor.eq_of_le_of_rest_eq (Cursor.le_advanceBy _ c) hle ?_
    rw [Cursor.rest_advanceBy, hr, List.drop_left]

/-- Behind `c` up to the end stand all cursors that can be reached from `c`. -/
theorem mem_onward_iff : d ∈ onward c.rest c ↔ c ≤ d := by
  rw [onward_eq rfl, List.mem_map]
  constructor
  · rintro ⟨n, -, rfl⟩
    exact Cursor.le_advanceBy n c
  · intro hle
    have hlen := (Cursor.rest_suffix_of_le hle).length_le
    refine ⟨c.rest.length - d.rest.length, List.mem_range.2 (by omega), ?_⟩
    refine Cursor.eq_of_le_of_rest_eq (Cursor.le_advanceBy _ c) hle ?_
    rw [Cursor.rest_advanceBy]
    exact (List.suffix_iff_eq_drop.1 (Cursor.rest_suffix_of_le hle)).symm

/-- **A wildcard splits at every cursor that leaves what it can leave.** -/
theorem mem_splits_iff {w : Wildcard} :
    d ∈ w.splits c ↔ c ≤ d ∧ w.Takes c.rest d.rest := by
  cases w with
  | star => exact mem_withinSegment_iff
  | manySegments =>
    rw [splits, Cursor.current]
    cases hs : c.rest with
    | nil => simp [Takes]
    | cons x s =>
      by_cases hx : x = '/'
      · subst hx
        rw [List.head?_cons, if_pos rfl, mem_onward_iff]
        constructor
        · intro hle
          obtain ⟨u, hu⟩ := Cursor.rest_suffix_of_le hle
          refine ⟨Cursor.le_trans (Cursor.le_advance c) hle, u, ?_⟩
          rw [hu, Cursor.rest_advance, hs, List.tail_cons]
        · rintro ⟨⟨n, rfl⟩, u, hu⟩
          cases n with
          | zero =>
            -- the separator was taken, so the cursor moved
            have hlen := congrArg List.length hu
            simp [hs] at hlen
            omega
          | succ n => exact ⟨n, rfl⟩
      · simp [Takes, hx]

end Wildcard

/-! ## Tokens -/

namespace Token

/-- The token can read `s` and leave `r`. -/
def Takes : Token → List Char → List Char → Prop
  | .element e => e.Takes
  | .wildcard w => w.Takes

/-- What a token leaves ends what it was given. -/
theorem Takes.suffix {t : Token} {s r : List Char} (h : t.Takes s r) : r <:+ s := by
  cases t with
  | element e => exact Element.Takes.suffix h
  | wildcard w => exact Wildcard.Takes.suffix h

end Token

end IgnoreRules
