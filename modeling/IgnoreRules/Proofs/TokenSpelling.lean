/-
# How tokens are spelled

A pattern is a text, and this module says which tokens it spells, without a cursor: `Token.Begins`
names the token that a text begins with and the text behind it, and `Token.Spells` reads a whole
text in this way from left to right.

* `exists_begins` : every text that is not empty begins with a token;
* `next_of_begins` : at a cursor, that token is the one that is read next;
* `spells_iff_readAll` : reading a pattern gives the one list of tokens that it spells.
-/
import IgnoreRules.Proofs.Lookahead

namespace IgnoreRules.Token

open Cursor (advanceBy)

/-! ## One token -/

/-- A literal run goes on up to the next of these characters. -/
def delimiters : List Char := ['*', '/', '[', '?']

/-- The text begins with the token, and `r` is the text behind it. -/
inductive Begins : List Char → Token → List Char → Prop
  | manySegments (r : List Char) :
      Begins ('/' :: '*' :: '*' :: '/' :: r) (.wildcard .manySegments) r
  | anySegment (r : List Char) : Begins ('/' :: '*' :: '/' :: r) (.element .anySegment) r
  /-- A separator with nothing but spaces behind it takes the spaces. -/
  | trailing {spaces : List Char} (h : ∀ x ∈ spaces, x = ' ') :
      Begins ('/' :: spaces) (.element (.separator true)) []
  | separator {r : List Char} (hm : ¬ ['*', '*', '/'] <+: r) (ha : ¬ ['*', '/'] <+: r)
      (hs : ∃ x ∈ r, x ≠ ' ') : Begins ('/' :: r) (.element (.separator false)) r
  | star (r : List Char) : Begins ('*' :: r) (.wildcard .star) r
  | option (r : List Char) : Begins ('?' :: r) (.element .option) r
  | choice {members : List Char} (r : List Char) (h : ']' ∉ members) :
      Begins ('[' :: (members ++ ']' :: r)) (.element (.choice members)) r
  /-- The first character may be any that starts no other token. -/
  | literal {x : Char} {w r : List Char} (hx : x ∉ ['*', '/', '?']) (hc : x = '[' → ']' ∉ w ++ r)
      (hw : ∀ y ∈ w, y ∉ delimiters) (hr : ∀ y ∈ r.head?, y ∈ delimiters) :
      Begins (x :: (w ++ r)) (.element (.literal (x :: w))) r

/-- A token takes at least one character. -/
theorem Begins.length_lt {s r : List Char} {t : Token} (h : Begins s t r) :
    r.length < s.length := by
  cases h <;> simp only [List.length_cons, List.length_append, List.length_nil] <;> omega

/-- The text opens a class that is never closed. -/
def Unclosed (s : List Char) : Prop := ∃ r, s = '[' :: r ∧ ']' ∉ r

theorem isDelimiter_iff {y : Char} : isDelimiter y = true ↔ y ∈ delimiters := by
  simp [isDelimiter, delimiters, or_assoc]

/-- A text is a run of characters without delimiters, and nothing or a delimiter behind it. -/
theorem exists_run (s : List Char) :
    ∃ w r, s = w ++ r ∧ (∀ y ∈ w, y ∉ delimiters) ∧ ∀ y ∈ r.head?, y ∈ delimiters := by
  induction s with
  | nil => exact ⟨[], [], rfl, by simp, by simp⟩
  | cons x s ih =>
    by_cases hx : x ∈ delimiters
    · exact ⟨[], x :: s, rfl, by simp, by simpa using hx⟩
    · obtain ⟨w, r, rfl, hw, hr⟩ := ih
      exact ⟨x :: w, r, rfl, by simpa using ⟨hx, hw⟩, hr⟩

/-- A text that starts no other token begins with a literal run. -/
theorem exists_begins_literal {x : Char} {s : List Char} (hx : x ∉ ['*', '/', '?'])
    (hc : x = '[' → ']' ∉ s) : ∃ t r, Begins (x :: s) t r := by
  obtain ⟨w, r, rfl, hw, hr⟩ := exists_run s
  exact ⟨_, r, .literal hx hc hw hr⟩

/-- A text that starts with a separator begins with one of the four tokens that do. -/
theorem exists_begins_slash (s : List Char) : ∃ t r, Begins ('/' :: s) t r := by
  by_cases hm : ['*', '*', '/'] <+: s
  · obtain ⟨r, rfl⟩ := hm
    exact ⟨_, r, .manySegments r⟩
  · by_cases ha : ['*', '/'] <+: s
    · obtain ⟨r, rfl⟩ := ha
      exact ⟨_, r, .anySegment r⟩
    · by_cases hs : ∃ x ∈ s, x ≠ ' '
      · exact ⟨_, s, .separator hm ha hs⟩
      · exact ⟨_, [], .trailing fun x hx => Classical.not_not.1 fun hne => hs ⟨x, hx, hne⟩⟩

/-- **Every text that is not empty begins with a token.** -/
theorem exists_begins {s : List Char} (hs : s ≠ []) : ∃ t r, Begins s t r := by
  obtain ⟨x, s, rfl⟩ := List.exists_cons_of_ne_nil hs
  by_cases hx : x ∈ ['*', '/', '?']
  · simp only [List.mem_cons, List.not_mem_nil, or_false] at hx
    rcases hx with rfl | rfl | rfl
    · exact ⟨_, s, .star s⟩
    · exact exists_begins_slash s
    · exact ⟨_, s, .option s⟩
  · -- a class that is never closed is left to the literal run
    by_cases hc : x = '[' ∧ ']' ∈ s
    · obtain ⟨rfl, hmem⟩ := hc
      obtain ⟨members, r, rfl, hm⟩ := List.eq_append_cons_of_mem hmem
      exact ⟨_, r, .choice r hm⟩
    · exact exists_begins_literal hx fun h hmem => hc ⟨h, hmem⟩

/-! ## Reading it at a cursor -/

variable {c : Cursor}

theorem current_eq_of_rest {x : Char} {s : List Char} (h : c.rest = x :: s) :
    c.current = some x := by
  rw [Cursor.current, h, List.head?_cons]

/-- A text that comes next is read. -/
theorem consume_of_rest {w r : List Char} (h : c.rest = w ++ r) :
    Matcher.consume w c = some (advanceBy w.length c) :=
  Matcher.consume_eq_some_iff.2 ⟨⟨r, h.symm⟩, rfl⟩

/-- Where a separator stands, the characters behind it decide its kind. -/
theorem classify_slash {s : List Char} (h : c.rest = '/' :: s) :
    classify c = if ['*', '*', '/'] <+: s then .manySegments
      else if ['*', '/'] <+: s then .anySegment else .separator := by
  have hm : c.startsWith Wildcard.manySegments.text = true ↔ ['*', '*', '/'] <+: s := by
    rw [Cursor.startsWith_iff_of_ne_nil (by simp [Wildcard.text]), h, Wildcard.text,
      List.cons_prefix_cons]
    simp
  have ha : c.startsWith anySegmentText = true ↔ ['*', '/'] <+: s := by
    rw [Cursor.startsWith_iff_of_ne_nil (by simp [anySegmentText]), h, anySegmentText,
      List.cons_prefix_cons]
    simp
  rw [classify_of_separator (current_eq_of_rest h)]
  simp only [hm, ha]

/-- A text of spaces does not go on with a star. -/
theorem not_prefix_of_spaces {spaces w : List Char} (h : ∀ x ∈ spaces, x = ' ') :
    ¬ '*' :: w <+: spaces := by
  rintro ⟨r, rfl⟩
  exact absurd (h '*' (by simp)) (by decide)

/-- A character that starts no other token announces a literal run. -/
theorem classify_literal {x : Char} {s : List Char} (h : c.rest = x :: s)
    (hx : x ∉ ['*', '/', '?']) (hc : x ≠ '[') (hn : classify c ≠ .negate) :
    classify c = .literal := by
  simp only [List.mem_cons, List.not_mem_nil, or_false, not_or] at hx
  rw [classify, current_eq_of_rest h] at hn ⊢
  split at hn <;> simp_all

/-- A literal run is read up to the next delimiter. -/
theorem readLiteral_of_rest {x : Char} {w r : List Char} (h : c.rest = x :: (w ++ r))
    (hw : ∀ y ∈ w, y ∉ delimiters) (hr : ∀ y ∈ r.head?, y ∈ delimiters) :
    readLiteral c = (.literal (x :: w), advanceBy (w.length + 1) c) := by
  have htake : (w ++ r).takeWhile (fun y => !isDelimiter y) = w := by
    rw [List.takeWhile_append_of_pos]
    · cases r with
      | nil => simp
      | cons y r =>
        have hy : isDelimiter y = true := isDelimiter_iff.2 (hr y rfl)
        simp [hy]
    · intro y hy
      simpa [← isDelimiter_iff] using hw y hy
  rw [readLiteral, h]
  simp only [htake, List.length_cons]

/-- **The token that the text begins with is the one that its kind announces**, unless it opens a
class that is never closed. -/
theorem read?_of_begins {t : Token} {r : List Char} (h : Begins c.rest t r)
    (hn : classify c ≠ .negate) (hc : ¬ Unclosed c.rest) :
    ∃ d, read? (classify c) c = some (t, d) ∧ c ≤ d ∧ d.rest = r := by
  generalize hs : c.rest = s at h
  -- each way to begin fixes the next character, and so what is announced
  cases h with
  | manySegments =>
    have hk : classify c = .manySegments := by rw [classify_slash hs, if_pos (by simp)]
    refine ⟨advanceBy 4 c, ?_, Cursor.le_advanceBy 4 c, by simp [hs]⟩
    rw [hk, read?, readWildcard?, consume_of_rest (w := Wildcard.manySegments.text) hs]
    rfl
  | anySegment =>
    have hk : classify c = .anySegment := by
      rw [classify_slash hs, if_neg (by simp), if_pos (by simp)]
    refine ⟨advanceBy 3 c, ?_, Cursor.le_advanceBy 3 c, by simp [hs]⟩
    rw [hk, read?, readAnySegment?, consume_of_rest (w := anySegmentText) hs]
    rfl
  | @trailing spaces h =>
    have hk : classify c = .separator := by
      rw [classify_slash hs, if_neg (not_prefix_of_spaces h), if_neg (not_prefix_of_spaces h)]
    refine ⟨advanceBy (spaces.length + 1) c, ?_, Cursor.le_advanceBy _ c, by simp [hs]⟩
    rw [hk, read?, readSeparator?, hs]
    simpa using h
  | separator hm ha hsp =>
    have hk : classify c = .separator := by rw [classify_slash hs, if_neg hm, if_neg ha]
    refine ⟨c.advance, ?_, Cursor.le_advance c, by simp [hs]⟩
    rw [hk, read?, readSeparator?, hs]
    simpa using hsp
  | star =>
    have hk : classify c = .star := by rw [classify, current_eq_of_rest hs]; rfl
    refine ⟨advanceBy 1 c, ?_, Cursor.le_advanceBy 1 c, by simp [hs]⟩
    rw [hk, read?, readWildcard?, consume_of_rest (w := Wildcard.star.text) hs]
    rfl
  | option =>
    have hk : classify c = .option := by rw [classify, current_eq_of_rest hs]; rfl
    refine ⟨c.advance, ?_, Cursor.le_advance c, by simp [hs]⟩
    rw [hk, read?, readOption?, if_pos (current_eq_of_rest hs)]
    rfl
  | @choice members r h =>
    have hk : classify c = .choice := by rw [classify, current_eq_of_rest hs]; rfl
    have htake : (members ++ ']' :: r).takeWhile (fun y => y ≠ ']') = members := by
      rw [List.takeWhile_append_of_pos]
      · simp
      · intro y hy
        simpa using fun hb : y = ']' => h (hb ▸ hy)
    refine ⟨advanceBy (members.length + 2) c, ?_, Cursor.le_advanceBy _ c, ?_⟩
    · rw [hk, read?, readChoice?, hs]
      simp only [htake, List.mem_append, List.mem_cons, true_or, or_true, if_true]
      rfl
    · simp [hs, List.drop_append]
  | @literal x w r hx hb hw hr =>
    have hk : classify c = .literal :=
      classify_literal hs hx (fun hb' => hc ⟨w ++ r, by rw [hs, hb'], hb hb'⟩) hn
    refine ⟨advanceBy (w.length + 1) c, ?_, Cursor.le_advanceBy _ c, by simp [hs]⟩
    rw [hk, read?, readLiteral_of_rest hs hw hr]

/-- A class that is never closed is announced as a class, and none is there. -/
theorem read?_of_unclosed (hc : Unclosed c.rest) :
    classify c = .choice ∧ read? .choice c = none := by
  obtain ⟨r, hs, hr⟩ := hc
  constructor
  · rw [classify, current_eq_of_rest hs]
    rfl
  · rw [read?, readChoice?, hs]
    simp [hr]

/-- A class that is never closed begins with a literal run. -/
theorem readLiteral_of_unclosed {t : Token} {r : List Char} (h : Begins c.rest t r)
    (hc : Unclosed c.rest) :
    ∃ e d, t = .element e ∧ readLiteral c = (e, d) ∧ c ≤ d ∧ d.rest = r := by
  obtain ⟨s, hs, hnot⟩ := hc
  rw [hs] at h
  cases h with
  | choice r hm => exact absurd (by simp) hnot
  | @literal x w r hx hb hw hr =>
    exact ⟨_, _, rfl, readLiteral_of_rest hs hw hr, Cursor.le_advanceBy _ c, by simp [hs]⟩

/-- **The builder that the next character announces** finds no token exactly where a class is
opened and never closed. -/
theorem read?_classify_eq_none_iff (hn : classify c ≠ .negate) :
    read? (classify c) c = none ↔ Unclosed c.rest := by
  constructor
  · intro h
    by_cases hs : c.rest = []
    · have hk : classify c = .literal := by rw [classify, Cursor.current, hs]; rfl
      exact absurd h (by simp [hk, read?])
    · obtain ⟨t, r, hb⟩ := exists_begins hs
      refine Classical.not_not.1 fun hc => ?_
      obtain ⟨d, hd, -⟩ := read?_of_begins hb hn hc
      exact absurd h (by simp [hd])
  · intro hc
    obtain ⟨hk, hr⟩ := read?_of_unclosed hc
    rw [hk, hr]

/-- What is read next, where no negation mark stands. -/
theorem next_of_not_negate (hn : classify c ≠ .negate) :
    next c = match read? (classify c) c with
      | some (t, r) => (some t, r)
      | none => (some (.element (readLiteral c).1), (readLiteral c).2) := by
  rw [next]
  split
  · next h => exact absurd h hn
  · rfl

/-- **The token that the text begins with is read next.** -/
theorem next_of_begins {t : Token} {r : List Char} (h : Begins c.rest t r)
    (hn : classify c ≠ .negate) : ∃ d, next c = (some t, d) ∧ c ≤ d ∧ d.rest = r := by
  rw [next_of_not_negate hn]
  by_cases hc : Unclosed c.rest
  · obtain ⟨e, d, rfl, hd, hle, hrest⟩ := readLiteral_of_unclosed h hc
    rw [(read?_classify_eq_none_iff hn).2 hc]
    exact ⟨d, by rw [hd], hle, hrest⟩
  · obtain ⟨d, hd, hle, hrest⟩ := read?_of_begins h hn hc
    rw [hd]
    exact ⟨d, rfl, hle, hrest⟩

/-! ## The whole text -/

/-- The text spells the tokens: it begins with the first, and the text behind it spells the
others. -/
inductive Spells : List Char → List Token → Prop
  | nil : Spells [] []
  | cons {s r : List Char} {t : Token} {ts : List Token} (h : Begins s t r) (hs : Spells r ts) :
      Spells s (t :: ts)

/-- The negation mark is a `!` in front of the whole pattern. -/
theorem classify_eq_negate_iff : classify c = .negate ↔ c.current = some '!' ∧ c.position = 0 := by
  rw [classify]
  constructor
  · intro h
    split at h
    · next hc =>
      by_cases hp : c.position = 0
      · exact ⟨hc, hp⟩
      · rw [if_neg hp] at h
        cases h
    · split at h
      · cases h
      · split at h <;> cases h
    all_goals cases h
  · rintro ⟨hc, hp⟩
    rw [hc]
    exact if_pos hp

/-- Behind the first character of a pattern stands no negation mark. -/
theorem classify_ne_negate_of_pos (hp : 0 < c.position) : classify c ≠ .negate := by
  intro h
  have := (classify_eq_negate_iff.1 h).2
  omega

/-- Behind a token stands no negation mark. -/
theorem classify_ne_negate_of_begins {d : Cursor} {t : Token} {r : List Char}
    (h : Begins c.rest t r) (hle : c ≤ d) (hr : d.rest = r) : classify d ≠ .negate := by
  have hlen := h.length_lt
  have hpos := Cursor.position_add_length_of_le hle
  rw [hr] at hpos
  exact classify_ne_negate_of_pos (by omega)

theorem readAll_of_rest_nil (h : c.rest = []) : readAll c = ([], c) := by
  rw [readAll]
  split
  · rfl
  · next h' => exact absurd (h.symm.trans h') (by simp)

/-- Before the end one token is read, and then the others. -/
theorem readAll_of_rest_ne_nil (hc : c.rest ≠ []) :
    readAll c = ((next c).1.toList ++ (readAll (next c).2).1, (readAll (next c).2).2) := by
  rw [readAll]
  split
  · next h => exact absurd h hc
  · rfl

/-- The negation mark is read over. -/
theorem next_of_negate (hn : classify c = .negate) : next c = (none, c.advance) := by
  rw [next, hn]

/-- Reading never goes back. -/
theorem le_next (hc : c.rest ≠ []) : c ≤ (next c).2 := by
  by_cases hn : classify c = .negate
  · rw [next_of_negate hn]
    exact Cursor.le_advance c
  · obtain ⟨t, r, hb⟩ := exists_begins hc
    obtain ⟨d, hd, hle, -⟩ := next_of_begins hb hn
    rw [hd]
    exact hle

/-- A pattern is read to its end. -/
theorem readAll_reaches_end (c : Cursor) : c ≤ (readAll c).2 ∧ (readAll c).2.rest = [] := by
  induction c using readAll.induct with
  | case1 c h => rw [readAll_of_rest_nil h]; exact ⟨Cursor.le_refl c, h⟩
  | case2 c x r h ih =>
    have hc : c.rest ≠ [] := by simp [h]
    rw [readAll_of_rest_ne_nil hc]
    exact ⟨Cursor.le_trans (le_next hc) ih.1, ih.2⟩

/-- Reading a pattern gives tokens that it spells. -/
theorem spells_readAll (hn : classify c ≠ .negate) : Spells c.rest (readAll c).1 := by
  induction h : c.rest.length using Nat.strongRecOn generalizing c with
  | _ n ih =>
    by_cases hc : c.rest = []
    · rw [readAll_of_rest_nil hc, hc]
      exact .nil
    · obtain ⟨t, r, hb⟩ := exists_begins hc
      obtain ⟨d, hd, hle, rfl⟩ := next_of_begins hb hn
      rw [readAll_of_rest_ne_nil hc, hd]
      have hlen := hb.length_lt
      exact .cons hb (ih d.rest.length (h ▸ hlen) (classify_ne_negate_of_begins hb hle rfl) rfl)

/-- Tokens that a pattern spells are those that are read. -/
theorem readAll_of_spells {s : List Char} {ts : List Token} (h : Spells s ts) (hs : c.rest = s)
    (hn : classify c ≠ .negate) : (readAll c).1 = ts := by
  induction h generalizing c with
  | nil => rw [readAll_of_rest_nil hs]
  | cons hb _ ih =>
    subst hs
    obtain ⟨d, hd, hle, hr⟩ := next_of_begins hb hn
    have hc : c.rest ≠ [] := by
      intro hc
      have hlen := hb.length_lt
      simp [hc] at hlen
    rw [readAll_of_rest_ne_nil hc, hd, ih hr (classify_ne_negate_of_begins hb hle hr)]
    rfl

/-- **Reading a pattern gives the one list of tokens that it spells.** -/
theorem spells_iff_readAll {ts : List Token} (hn : classify c ≠ .negate) :
    Spells c.rest ts ↔ (readAll c).1 = ts := by
  constructor
  · intro h
    exact readAll_of_spells h rfl hn
  · rintro rfl
    exact spells_readAll hn

end IgnoreRules.Token
