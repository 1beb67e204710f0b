/-
# The language of a line

Which paths a line matches is said twice.  `Pattern.Matches` reads the path as a text, each token
taking some of it from the front.  `Chain` reads it by positions: it goes through the tokens of the
line in one step each, and `Token.Step` says from where to where a token may step.

* `isSome_reach_iff` : the search never misses a way to read the path;
* `step_iff_takes`, `matches_iff_chain` : positions and texts say the same;
* `accepts_iff_chain` : a line matches a path exactly when there is a chain through it.
-/
import IgnoreRules.Proofs.PatternReach
import IgnoreRules.Proofs.TokenSpelling
import IgnoreRules.Rule

namespace IgnoreRules

/-! ## Texts -/

namespace Pattern

/-- The tokens can read the text, but for one separator at its end. -/
def Matches : List Token → List Char → Prop
  | [], s => s = [] ∨ s = ['/']
  | t :: ts, s => ∃ r, t.Takes s r ∧ Matches ts r

/-- Reading on from a token goes through a cursor that leaves what the token can leave. -/
theorem isSome_reach_cons_iff {t : Token} {ts : List Token} {c : Cursor} :
    (reach (t :: ts) c).isSome ↔
      ∃ d, c ≤ d ∧ t.Takes c.rest d.rest ∧ (reach ts d).isSome := by
  cases t with
  | element e =>
    rw [reach, Option.isSome_bind, Option.any_eq_true]
    constructor
    · rintro ⟨d, hd, h⟩
      obtain ⟨hle, ht⟩ := Element.reached_matcher_iff.1 hd
      exact ⟨d, hle, ht, h⟩
    · rintro ⟨d, hle, ht, h⟩
      exact ⟨d, Element.reached_matcher_iff.2 ⟨hle, ht⟩, h⟩
  | wildcard w =>
    rw [reach, List.findSome?_isSome_iff]
    constructor
    · rintro ⟨d, hd, h⟩
      obtain ⟨hle, ht⟩ := Wildcard.mem_splits_iff.1 hd
      exact ⟨d, hle, ht, h⟩
    · rintro ⟨d, hle, ht, h⟩
      exact ⟨d, Wildcard.mem_splits_iff.2 ⟨hle, ht⟩, h⟩

/-- **The search never misses a way to read the path**, and finds none where there is none. -/
theorem isSome_reach_iff {ts : List Token} {c : Cursor} :
    (reach ts c).isSome ↔ Matches ts c.rest := by
  induction ts generalizing c with
  | nil =>
    rw [reach, Option.isSome_iff_exists, Matches]
    constructor
    · rintro ⟨d, hd⟩
      exact (Matcher.reached_endOfInput_iff.1 hd).1
    · intro h
      obtain ⟨d, hle, hr⟩ := Cursor.exists_le_of_suffix (c := c) List.nil_suffix
      exact ⟨d, Matcher.reached_endOfInput_iff.2 ⟨h, hle, hr⟩⟩
  | cons t ts ih =>
    rw [isSome_reach_cons_iff, Matches]
    constructor
    · rintro ⟨d, -, ht, h⟩
      exact ⟨d.rest, ht, ih.1 h⟩
    · rintro ⟨r, ht, h⟩
      obtain ⟨d, hle, rfl⟩ := Cursor.exists_le_of_suffix ht.suffix
      exact ⟨d, hle, ht, ih.2 h⟩

/-- The matcher of a pattern succeeds exactly on the texts that its tokens can read. -/
theorem matched_matcher_iff {ts : List Token} {c : Cursor} :
    (matcher ts c).matched = true ↔ Matches ts c.rest := by
  rw [← isSome_reach_iff, matcher_eq_reach]
  cases reach ts c <;> simp

end Pattern

/-! ## Positions -/

/-- The characters of a text from position `i` up to position `j`. -/
def slice (path : List Char) (i j : Nat) : List Char := (path.drop i).take (j - i)

section

variable {path : List Char} {i j : Nat}

theorem slice_append_drop (hij : i ≤ j) : slice path i j ++ path.drop j = path.drop i := by
  have h := List.take_append_drop (j - i) (path.drop i)
  rwa [List.drop_drop, Nat.add_sub_cancel' hij] at h

/-- What is read between two positions is the slice between them. -/
theorem drop_eq_append_iff (hij : i ≤ j) {w : List Char} :
    path.drop i = w ++ path.drop j ↔ slice path i j = w := by
  rw [← slice_append_drop hij, List.append_left_inj]

theorem drop_eq_cons_iff {x : Char} {s : List Char} :
    path.drop i = x :: s ↔ path[i]? = some x ∧ path.drop (i + 1) = s := by
  rw [← List.head?_drop, ← List.tail_drop]
  cases path.drop i <;> simp

/-- A position in a text is known by what is behind it. -/
theorem drop_inj (hi : i ≤ path.length) (hj : j ≤ path.length) :
    path.drop i = path.drop j ↔ i = j := by
  constructor
  · intro h
    have hlen := congrArg List.length h
    rw [List.length_drop, List.length_drop] at hlen
    omega
  · rintro rfl
    rfl

/-- Reading one character moves on by one position. -/
theorem drop_eq_cons_drop_iff (hj : j ≤ path.length) {x : Char} :
    path.drop i = x :: path.drop j ↔ path[i]? = some x ∧ j = i + 1 := by
  rw [drop_eq_cons_iff]
  refine and_congr_right fun h => ?_
  have hi : i < path.length := (List.getElem?_eq_some_iff.1 h).1
  rw [drop_inj hi hj, eq_comm]

/-- What ends the text behind a position stands behind a later one. -/
theorem exists_drop_eq_of_suffix {r : List Char} (hi : i ≤ path.length)
    (h : r <:+ path.drop i) : ∃ j, i ≤ j ∧ j ≤ path.length ∧ path.drop j = r := by
  obtain ⟨w, hw⟩ := h
  have hlen := congrArg List.length hw
  rw [List.length_append, List.length_drop] at hlen
  refine ⟨i + w.length, Nat.le_add_right _ _, by omega, ?_⟩
  rw [← List.drop_drop, ← hw, List.drop_left]

end

namespace Token

/-- The token may step from position `i` of the path to position `j`. -/
def Step (path : List Char) : Token → Nat → Nat → Prop
  | .element (.literal w), i, j => slice path i j = w
  | .element .anySegment, i, j =>
      path[i]? = some '/' ∧
        ((∃ m, i < m ∧ '/' ∉ slice path (i + 1) m ∧ path[m]? = some '/' ∧ j = m + 1) ∨
          '/' ∉ path.drop (i + 1) ∧ j = path.length)
  | .element (.choice members), i, j => (∃ x ∈ members, path[i]? = some x) ∧ j = i + 1
  | .element .option, i, j => j = i + 1
  | .element (.separator trailing), i, j =>
      path[i]? = some '/' ∧ j = i + 1 ∨
        trailing = true ∧ i = path.length ∧ j = path.length
  | .wildcard .star, i, j => '/' ∉ slice path i j
  | .wildcard .manySegments, i, j => path[i]? = some '/' ∧ i < j

variable {path : List Char} {i j : Nat}

/-- A step over a segment goes behind the next separator, or to the end of the path. -/
theorem step_anySegment_iff (hij : i ≤ j) (hj : j ≤ path.length) :
    (element .anySegment).Step path i j ↔
      Element.anySegment.Takes (path.drop i) (path.drop j) := by
  constructor
  · rintro ⟨hi, ⟨m, hm, hsep, hmsep, rfl⟩ | ⟨hsep, rfl⟩⟩
    · refine ⟨_, hsep, Or.inl ?_⟩
      rw [drop_eq_cons_iff, ← slice_append_drop hm]
      exact ⟨hi, congrArg _ (drop_eq_cons_iff.2 ⟨hmsep, rfl⟩)⟩
    · refine ⟨_, hsep, Or.inr ⟨?_, List.drop_length⟩⟩
      exact drop_eq_cons_iff.2 ⟨hi, rfl⟩
  · rintro ⟨w, hw, hs | ⟨hs, hend⟩⟩
    · -- the next separator stands right behind the segment
      obtain ⟨hi, hs⟩ := drop_eq_cons_iff.1 hs
      have hlen := congrArg List.length hs
      simp only [List.length_append, List.length_cons, List.length_drop] at hlen
      refine ⟨hi, Or.inl ⟨i + 1 + w.length, by omega, ?_, ?_, by omega⟩⟩
      · have hsl : slice path (i + 1) (i + 1 + w.length) = w := by
          rw [slice, hs, Nat.add_sub_cancel_left, List.take_left]
        rwa [hsl]
      · rw [← List.head?_drop, ← List.drop_drop, hs, List.drop_left, List.head?_cons]
    · obtain ⟨hi, rfl⟩ := drop_eq_cons_iff.1 hs
      have hlen := List.drop_eq_nil_iff.1 hend
      exact ⟨hi, Or.inr ⟨hw, by omega⟩⟩

/-- **Positions and texts say the same**: a token may step to a position if it can leave what
stands behind it. -/
theorem step_iff_takes {t : Token} (hij : i ≤ j) (hj : j ≤ path.length) :
    t.Step path i j ↔ t.Takes (path.drop i) (path.drop j) := by
  rcases t with (w | _ | members | _ | trailing) | (_ | _)
  · exact (drop_eq_append_iff hij).symm
  · exact step_anySegment_iff hij hj
  · show (∃ x ∈ members, path[i]? = some x) ∧ j = i + 1 ↔
      ∃ x ∈ members, path.drop i = x :: path.drop j
    simp only [drop_eq_cons_drop_iff hj]
    constructor
    · rintro ⟨⟨x, hx, hi⟩, rfl⟩
      exact ⟨x, hx, hi, rfl⟩
    · rintro ⟨x, hx, hi, rfl⟩
      exact ⟨⟨x, hx, hi⟩, rfl⟩
  · show j = i + 1 ↔ ∃ x, path.drop i = x :: path.drop j
    simp only [drop_eq_cons_drop_iff hj]
    constructor
    · rintro rfl
      exact ⟨path[i], List.getElem?_eq_getElem hj, rfl⟩
    · rintro ⟨x, -, rfl⟩
      rfl
  · show _ ∨ _ ↔ path.drop i = '/' :: path.drop j ∨ _ ∧ path.drop i = [] ∧ path.drop j = []
    rw [drop_eq_cons_drop_iff hj, List.drop_eq_nil_iff, List.drop_eq_nil_iff]
    refine or_congr_right (and_congr_right fun _ => ?_)
    omega
  · show '/' ∉ slice path i j ↔ ∃ w, '/' ∉ w ∧ path.drop i = w ++ path.drop j
    simp only [drop_eq_append_iff hij]
    simp
  · show path[i]? = some '/' ∧ i < j ↔ ∃ w, path.drop i = '/' :: (w ++ path.drop j)
    simp only [drop_eq_cons_iff]
    constructor
    · rintro ⟨hi, hlt⟩
      exact ⟨_, hi, (slice_append_drop hlt).symm⟩
    · rintro ⟨w, hi, hw⟩
      refine ⟨hi, ?_⟩
      have hlt : i < path.length := (List.getElem?_eq_some_iff.1 hi).1
      have hlen := congrArg List.length hw
      simp only [List.length_append, List.length_drop] at hlen
      omega

end Token

/-- A chain through the path from position `i` to position `k`, with one step for each token. -/
inductive Chain (path : List Char) : List Token → Nat → Nat → Prop
  | nil (i : Nat) : Chain path [] i i
  | cons {t : Token} {ts : List Token} {i j k : Nat} (hij : i ≤ j) (hj : j ≤ path.length)
      (h : t.Step path i j) (hs : Chain path ts j k) : Chain path (t :: ts) i k

/-- Position `k` is the end of the path, or stands in front of a separator that ends it. -/
def Ends (path : List Char) (k : Nat) : Prop :=
  k = path.length ∨ path[k]? = some '/' ∧ k + 1 = path.length

/-- A path ends at a place if at most a separator is left there. -/
theorem ends_iff {path : List Char} {k : Nat} (hk : k ≤ path.length) :
    Ends path k ↔ path.drop k = [] ∨ path.drop k = ['/'] := by
  rw [List.drop_eq_nil_iff, drop_eq_cons_iff, List.drop_eq_nil_iff, Ends]
  constructor
  · rintro (rfl | ⟨h, hl⟩)
    · exact Or.inl (Nat.le_refl _)
    · exact Or.inr ⟨h, Nat.le_of_eq hl.symm⟩
  · rintro (hl | ⟨h, hl⟩)
    · exact Or.inl (Nat.le_antisymm hk hl)
    · exact Or.inr ⟨h, Nat.le_antisymm (List.getElem?_eq_some_iff.1 h).1 hl⟩

/-- **The tokens can read a text exactly when there is a chain through it** that ends it. -/
theorem matches_iff_chain {path : List Char} {ts : List Token} {i : Nat} (hi : i ≤ path.length) :
    Pattern.Matches ts (path.drop i) ↔ ∃ k, Chain path ts i k ∧ Ends path k := by
  induction ts generalizing i with
  | nil =>
    rw [Pattern.Matches, ← ends_iff hi]
    constructor
    · intro h
      exact ⟨i, .nil i, h⟩
    · rintro ⟨k, ⟨⟩, h⟩
      exact h
  | cons t ts ih =>
    rw [Pattern.Matches]
    constructor
    · rintro ⟨r, ht, h⟩
      -- what the first token leaves stands behind the position it steps to
      obtain ⟨j, hij, hj, rfl⟩ := exists_drop_eq_of_suffix hi ht.suffix
      obtain ⟨k, hc, hk⟩ := (ih hj).1 h
      exact ⟨k, .cons hij hj ((Token.step_iff_takes hij hj).2 ht) hc, hk⟩
    · rintro ⟨k, hc, hk⟩
      cases hc with
      | @cons _ _ _ j _ hij hj ht hc =>
        exact ⟨_, (Token.step_iff_takes hij hj).1 ht, (ih hj).2 ⟨k, hc, hk⟩⟩

/-! ## Lines -/

namespace Rule

/-- A line without one negation mark in front. -/
def unmarked : List Char → List Char
  | '!' :: r => r
  | line => line

/-- **What a line spells behind its negation mark are the tokens that are read from it.** -/
theorem spells_unmarked_iff {line : List Char} {ts : List Token} :
    Token.Spells (unmarked line) ts ↔ (Token.readAll (.start line)).1 = ts := by
  by_cases hm : ∃ r, line = '!' :: r
  · obtain ⟨r, rfl⟩ := hm
    have hn : Token.classify (.start ('!' :: r)) = .negate := rfl
    have hc : (Cursor.start ('!' :: r)).rest ≠ [] := by simp
    rw [Token.readAll_of_rest_ne_nil hc, Token.next_of_negate hn]
    -- behind the mark the pattern is read from position one on, where no other mark can stand
    exact Token.spells_iff_readAll (c := (Cursor.start ('!' :: r)).advance)
      (Token.classify_ne_negate_of_pos (by simp [Cursor.position_advance, Cursor.atEnd]))
  · have hu : unmarked line = line := by
      rw [unmarked]
      exact fun r hr => hm ⟨r, hr⟩
    rw [hu]
    refine Token.spells_iff_readAll (c := .start line) fun hn => hm ?_
    exact List.head?_eq_some_iff.1 (Token.classify_eq_negate_iff.1 hn).1

/-- A line is blank if it has no character but spaces. -/
theorem isBlank_start_iff {line : List Char} :
    Pattern.isBlank (.start line) = true ↔ ¬ ∃ x ∈ line, x ≠ ' ' := by
  simp [Pattern.isBlank]

/-- A line matches the texts that its tokens can read, and none if it is blank. -/
theorem accepts_compile_iff {line path : List Char} :
    (compile line).accepts path = true ↔
      (∃ x ∈ line, x ≠ ' ') ∧ Pattern.Matches (Token.readAll (.start line)).1 path := by
  show (matcherOf line (.start path)).matched = true ↔ _
  rw [matcherOf]
  by_cases hb : ∃ x ∈ line, x ≠ ' '
  · rw [if_neg (mt isBlank_start_iff.1 (not_not_intro hb)), Pattern.compile,
      Pattern.matched_matcher_iff]
    exact (and_iff_right hb).symm
  · rw [if_pos (isBlank_start_iff.2 hb)]
    constructor
    · intro h
      cases h
    · intro h
      exact absurd h.1 hb

/-- **The language of a line.**  Behind its negation mark, a line spells exactly one list of tokens.
It matches a path exactly when it holds something other than spaces and there is a chain through
the path, with one step for each token, from its start to its end or to a separator that ends it. -/
theorem accepts_iff_chain (line : List Char) :
    ∃ ts, (∀ us, Token.Spells (unmarked line) us ↔ us = ts) ∧
      ∀ path, (compile line).accepts path = true ↔
        (∃ x ∈ line, x ≠ ' ') ∧ ∃ k, Chain path ts 0 k ∧ Ends path k := by
  refine ⟨(Token.readAll (.start line)).1, fun us => ?_, fun path => ?_⟩
  · rw [spells_unmarked_iff, eq_comm]
  · rw [accepts_compile_iff, ← matches_iff_chain (Nat.zero_le _), List.drop_zero]

end Rule

end IgnoreRules
