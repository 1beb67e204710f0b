/-
# Lines that match the same paths

Two lines that agree up to a token match the same paths if what they spell from there on does
(`accepts_congr_of_beginsAt`).  With laws for the tokens themselves this settles what the end of a
line and a repeated wildcard come to.  Both depend on the token that the separator in question
belongs to, which is seen where a token begins (`BeginsAt`).

* `matches_manySegments_star`, `matches_star_star` : `/**/` and `*` take in a star behind them;
* `negation_mark_sets_flag_only` : a mark in front of a line leaves its matches as they are;
* `spaces_behind_final_separator` : spaces at the end of a line are left out behind a separator, and
  belong to the text behind `/*/` and `/**/`;
* `adjacent_manySegments` : of two wildcards that share a separator only one is read as such;
* `manySegments_subsumes` : `/**/` matches all that a separator and `/*/` do in its place;
* `adjacent_stars` : of two stars that no separator follows one is enough.
-/
import IgnoreRules.Proofs.PatternParts

namespace IgnoreRules

/-! ## Laws of tokens -/

namespace Pattern

variable {s : List Char} {ts : List Token}

/-- `/**/` takes in a star behind it. -/
theorem matches_manySegments_star :
    Matches (.wildcard .manySegments :: .wildcard .star :: ts) s ↔
      Matches (.wildcard .manySegments :: ts) s := by
  constructor
  · rintro ⟨_, ⟨w, rfl⟩, r, ⟨w', -, rfl⟩, h⟩
    exact ⟨r, ⟨w ++ w', by simp⟩, h⟩
  · rintro ⟨r, ht, h⟩
    exact ⟨r, ht, r, ⟨[], by simp, rfl⟩, h⟩

/-- `/**/` takes all that a separator does. -/
theorem matches_of_separator (h : Matches (.element (.separator false) :: ts) s) :
    Matches (.wildcard .manySegments :: ts) s := by
  obtain ⟨r, rfl | ⟨h, -⟩, hr⟩ := h
  · exact ⟨r, ⟨[], rfl⟩, hr⟩
  · cases h

/-- `/**/` takes all that a segment and its separators do. -/
theorem matches_of_anySegment (h : Matches (.element .anySegment :: ts) s) :
    Matches (.wildcard .manySegments :: ts) s := by
  obtain ⟨r, ⟨w, -, rfl | ⟨rfl, rfl⟩⟩, hr⟩ := h
  · exact ⟨r, ⟨w ++ ['/'], by simp⟩, hr⟩
  · exact ⟨[], ⟨w, by simp⟩, hr⟩

/-- `/**/` takes in another one behind it. -/
theorem matches_of_manySegments
    (h : Matches (.wildcard .manySegments :: .wildcard .manySegments :: ts) s) :
    Matches (.wildcard .manySegments :: ts) s := by
  obtain ⟨_, ⟨w, rfl⟩, r, ⟨w', rfl⟩, hr⟩ := h
  exact ⟨r, ⟨w ++ '/' :: w', by simp⟩, hr⟩

/-- A star takes in a star behind it. -/
theorem matches_star_star :
    Matches (.wildcard .star :: .wildcard .star :: ts) s ↔ Matches (.wildcard .star :: ts) s := by
  constructor
  · rintro ⟨_, ⟨w, hw, rfl⟩, r, ⟨w', hw', rfl⟩, h⟩
    exact ⟨r, ⟨w ++ w', by simp [hw, hw'], by simp⟩, h⟩
  · rintro ⟨r, ht, h⟩
    exact ⟨r, ht, r, ⟨[], by simp, rfl⟩, h⟩

/-- Of the members of a class neither order nor number counts. -/
theorem matches_choice_congr {members members' : List Char}
    (hm : ∀ x, x ∈ members ↔ x ∈ members') :
    Matches (.element (.choice members) :: ts) s ↔
      Matches (.element (.choice members') :: ts) s := by
  refine exists_congr fun r => and_congr_left fun _ => ?_
  exact exists_congr fun x => and_congr_left fun _ => hm x

end Pattern

/-! ## Lines that agree up to a token -/

namespace Rule

open Token (Reads ReplaceableBy Spells Straddles)

/-- A token of the line begins in front of `s`, which ends the line. -/
def BeginsAt (line s : List Char) : Prop := ∃ ts, Reads (unmarked line) ts s

variable {q s s' v path : List Char} {us us' : List Token}

/-- Reading a line stops at any separator, or at the token that straddles it. -/
theorem exists_beginsAt (q s : List Char) :
    ∃ v, BeginsAt (q ++ '/' :: s) (v ++ '/' :: s) ∧ (v = [] ∨ Straddles v s) := by
  obtain ⟨ts, v, hr, hv⟩ := Token.exists_reads (unmarked q) s
  exact ⟨v, ⟨ts, by rwa [unmarked_append_slash]⟩, hv⟩

/-- Where a token begins in front of a separator does not depend on what follows it, unless a class
could now be closed that was not. -/
theorem BeginsAt.replace_tail (h : BeginsAt (q ++ '/' :: s) (v ++ '/' :: s))
    (hb : ']' ∈ s' → ']' ∈ s) : BeginsAt (q ++ '/' :: s') (v ++ '/' :: s') := by
  obtain ⟨ts, hr⟩ := h
  rw [unmarked_append_slash] at hr
  refine ⟨ts, ?_⟩
  rw [unmarked_append_slash]
  exact hr.replace_tail (.slash hb)

/-- A token of the line begins at a separator if none that begins in front of it can take it. -/
theorem beginsAt_of_not_straddles (hc : '[' ∉ q) (ha : ¬ ['/', '*'] <:+ q)
    (hm : ¬ ['/', '*', '*'] <:+ q) (s : List Char) : BeginsAt (q ++ '/' :: s) ('/' :: s) := by
  obtain ⟨v, hv, rfl | hs⟩ := exists_beginsAt q s
  · exact hv
  · obtain ⟨ts, hread⟩ := hv
    rw [unmarked_append_slash] at hread
    -- what a token takes in front of the separator ends what stands there
    obtain ⟨w, hw⟩ := hread.suffix
    rw [← List.append_assoc] at hw
    have hsuffix : v <:+ q :=
      (List.suffix_append w v).trans (List.append_cancel_right hw ▸ unmarked_suffix q)
    cases hs with
    | anySegment => exact absurd hsuffix ha
    | manySegments => exact absurd hsuffix hm
    | choice => exact absurd (hsuffix.subset (by simp)) hc

/-- Two lines that agree up to a token spell the same tokens up to there. -/
theorem exists_spells_of_beginsAt (h : BeginsAt (q ++ s) (v ++ s)) (hs : ReplaceableBy s s')
    (hspell : Spells (v ++ s) us) (hspell' : Spells (v ++ s') us') :
    ∃ ts, Spells (unmarked (q ++ s)) (ts ++ us) ∧ Spells (unmarked (q ++ s')) (ts ++ us') := by
  obtain ⟨ts, hr⟩ := h
  rw [unmarked_append hs.delimited.no_mark] at hr
  rw [unmarked_append hs.delimited.no_mark, unmarked_append hs.delimited'.no_mark]
  exact ⟨ts, hr.spells hspell, (hr.replace_tail hs).spells hspell'⟩

/-- Two lines that agree up to a token match what some common tokens and those that they spell from
there on can read. -/
theorem exists_matches_of_beginsAt (h : BeginsAt (q ++ s) (v ++ s)) (hs : ReplaceableBy s s')
    (hspell : Spells (v ++ s) us) (hspell' : Spells (v ++ s') us') (path : List Char) :
    ∃ ts, ((compile (q ++ s)).accepts path = true ↔ Pattern.Matches (ts ++ us) path) ∧
      ((compile (q ++ s')).accepts path = true ↔ Pattern.Matches (ts ++ us') path) := by
  obtain ⟨ts, hline, hline'⟩ := exists_spells_of_beginsAt h hs hspell hspell'
  have hblank : ∀ {u}, (∃ x ∈ u, x ≠ ' ') → ∃ x ∈ q ++ u, x ≠ ' ' := by
    rintro u ⟨x, hx, hsp⟩
    exact ⟨x, List.mem_append_right q hx, hsp⟩
  exact ⟨ts, accepts_iff_of_spells hline (hblank hs.delimited.nonblank),
    accepts_iff_of_spells hline' (hblank hs.delimited'.nonblank)⟩

/-- Of two lines that agree up to a token, the second matches all that the first does if what it
spells from there on does. -/
theorem accepts_mono_of_beginsAt (hr : BeginsAt (q ++ '/' :: s) (v ++ '/' :: s))
    (hb : ']' ∈ s' → ']' ∈ s) (h : Spells (v ++ '/' :: s) us) (h' : Spells (v ++ '/' :: s') us')
    (hm : ∀ r, Pattern.Matches us r → Pattern.Matches us' r)
    (hp : (compile (q ++ '/' :: s)).accepts path = true) :
    (compile (q ++ '/' :: s')).accepts path = true := by
  obtain ⟨ts, hfirst, hsecond⟩ := exists_matches_of_beginsAt hr (.slash hb) h h' path
  exact hsecond.2 (Pattern.matches_append_mono hm (hfirst.1 hp))

/-- **Two lines that agree up to a token** match the same paths if what they spell from there on
does. -/
theorem accepts_congr_of_replaceable (hr : BeginsAt (q ++ s) (v ++ s)) (hs : ReplaceableBy s s')
    (h : Spells (v ++ s) us) (h' : Spells (v ++ s') us')
    (hm : ∀ r, Pattern.Matches us r ↔ Pattern.Matches us' r) :
    (compile (q ++ s)).accepts path = true ↔ (compile (q ++ s')).accepts path = true := by
  obtain ⟨ts, hfirst, hsecond⟩ := exists_matches_of_beginsAt hr hs h h' path
  rw [hfirst, hsecond]
  exact Pattern.matches_append_congr hm

/-- At a separator, only what closes a class may not be replaced. -/
theorem accepts_congr_of_beginsAt (hr : BeginsAt (q ++ '/' :: s) (v ++ '/' :: s))
    (hb : ']' ∈ s' → ']' ∈ s) (h : Spells (v ++ '/' :: s) us) (h' : Spells (v ++ '/' :: s') us')
    (hm : ∀ r, Pattern.Matches us r ↔ Pattern.Matches us' r) :
    (compile (q ++ '/' :: s)).accepts path = true ↔
      (compile (q ++ '/' :: s')).accepts path = true :=
  accepts_congr_of_replaceable hr (.slash hb) h h' hm

/-- A class that is closed behind some text lists that text, and is closed at the same place
whatever the text is. -/
theorem exists_spells_class {m r : List Char} (hm : ']' ∉ m) (hr : ']' ∈ r) :
    ∃ w ts, ∀ x, ']' ∉ x →
      Spells ('[' :: m ++ (x ++ r)) (.element (.choice (m ++ x ++ w)) :: ts) := by
  obtain ⟨w, u, rfl, hw⟩ := List.eq_append_cons_of_mem hr
  obtain ⟨ts, hts⟩ := Token.exists_spells u
  refine ⟨w, ts, fun x hx => ?_⟩
  have hb := Token.Begins.choice u (show ']' ∉ m ++ x ++ w by simp [hm, hx, hw])
  exact .cons (by simpa using hb) hts

/-! ## The negation mark -/

/-- Behind a negation mark the same tokens are read as without it. -/
theorem readAll_marked {line : List Char} (hn : ¬ ['!'] <+: line) :
    (Token.readAll (.start ('!' :: line))).1 = (Token.readAll (.start line)).1 := by
  obtain ⟨ts, hts⟩ := Token.exists_spells line
  have hline : Spells (unmarked line) ts := by rwa [unmarked_of_no_mark hn]
  have hmarked : Spells (unmarked ('!' :: line)) ts := hts
  rw [spells_unmarked_iff.1 hline, spells_unmarked_iff.1 hmarked]

/-- **A negation mark does not change what a line matches.**  The pattern behind it stands one
character further on, but nothing in it looks at its place.  Of the flags of the rule the mark sets
one and leaves the other. -/
theorem negation_mark_sets_flag_only {line : List Char} (hb : ∃ x ∈ line, x ≠ ' ')
    (hn : ¬ ['!'] <+: line) :
    (∀ path, (compile ('!' :: line)).accepts path = true ↔ (compile line).accepts path = true) ∧
      (compile ('!' :: line)).isDir = (compile line).isDir ∧
      (compile ('!' :: line)).isNegate = true ∧ (compile line).isNegate = false := by
  refine ⟨fun path => ?_, ?_, rfl, ?_⟩
  · have hmarked : ∃ x ∈ '!' :: line, x ≠ ' ' := ⟨'!', by simp, by decide⟩
    rw [accepts_compile_iff, accepts_compile_iff, readAll_marked hn]
    exact and_congr_left fun _ => iff_of_true hmarked hb
  · -- the line has a last character, which the mark does not change
    obtain ⟨x, hx, -⟩ := hb
    obtain ⟨y, r, rfl⟩ := List.exists_cons_of_ne_nil (List.ne_nil_of_mem hx)
    show decide (('!' :: y :: r).getLast? = some '/') = decide ((y :: r).getLast? = some '/')
    rw [List.getLast?_cons_cons]
  · refine decide_eq_false fun h => hn ?_
    obtain ⟨r, rfl⟩ := List.head?_eq_some_iff.1 h
    exact List.prefix_append ['!'] r

/-- With a mark or without, `*/!b/` matches `a/!b`, and both are rules for directories. -/
theorem negation_mark_sets_flag_only_of_inner_mark :
    (∃ x ∈ ['*', '/', '!', 'b', '/'], x ≠ ' ') ∧ ¬ ['!'] <+: ['*', '/', '!', 'b', '/'] ∧
      (compile ['!', '*', '/', '!', 'b', '/']).accepts ['a', '/', '!', 'b'] = true ∧
      (compile ['!', '*', '/', '!', 'b', '/']).isDir = true ∧
      (compile ['!', '*', '/', '!', 'b', '/']).isNegate = true ∧
      (compile ['*', '/', '!', 'b', '/']).isNegate = false := by
  have hb : ∃ x ∈ ['*', '/', '!', 'b', '/'], x ≠ ' ' := ⟨'*', by simp, by decide⟩
  have hn : ¬ ['!'] <+: ['*', '/', '!', 'b', '/'] := by decide
  obtain ⟨hmatch, hdir, hmarked, hplain⟩ := negation_mark_sets_flag_only hb hn
  exact ⟨hb, hn, (hmatch _).2 (by decide +kernel), hdir.trans (by decide), hmarked, hplain⟩

/-! ## Spaces behind the last separator -/

/-- Spaces alone are one literal run. -/
theorem spells_spaces (n : Nat) :
    Spells (List.replicate (n + 1) ' ') [.element (.literal (List.replicate (n + 1) ' '))] := by
  have hb : Token.Begins (' ' :: (List.replicate n ' ' ++ []))
      (.element (.literal (' ' :: List.replicate n ' '))) [] := by
    refine .literal (by decide) (fun h => absurd h (by decide)) ?_ (by simp)
    intro y hy
    rw [List.eq_of_mem_replicate hy]
    decide
  rw [List.append_nil] at hb
  exact .cons hb .nil

/-- Behind a token that straddles the last separator, spaces are read as text. -/
theorem readAll_append_spaces {p : List Char} {t : Token} (hr : BeginsAt (p ++ ['/']) (v ++ ['/']))
    (ht : ∀ r, Token.Begins (v ++ '/' :: r) t r) (n : Nat) :
    (Token.readAll (.start (p ++ '/' :: List.replicate (n + 1) ' '))).1 =
      (Token.readAll (.start (p ++ ['/']))).1 ++
        [.element (.literal (List.replicate (n + 1) ' '))] := by
  have hb : ']' ∈ List.replicate (n + 1) ' ' → ']' ∈ ([] : List Char) := fun h =>
    absurd (List.eq_of_mem_replicate h) (by decide)
  obtain ⟨ts, hline, hline'⟩ := exists_spells_of_beginsAt hr (.slash hb) (.cons (ht []) .nil)
    (.cons (ht _) (spells_spaces n))
  rw [spells_unmarked_iff.1 hline, spells_unmarked_iff.1 hline', List.append_assoc]
  rfl

/-- **Spaces behind the last separator** of a line are left out when the line is matched, if that
separator is a token of its own.  If it closes `/*/` or `/**/`, they are text that has to be
matched. -/
theorem spaces_behind_final_separator (p : List Char) :
    (BeginsAt (p ++ ['/']) ['/'] → ∀ n path,
      (compile (p ++ '/' :: List.replicate n ' ')).accepts path = true ↔
        (compile (p ++ ['/'])).accepts path = true) ∧
    (BeginsAt (p ++ ['/']) ['/', '*', '/'] ∨ BeginsAt (p ++ ['/']) ['/', '*', '*', '/'] → ∀ n,
      (Token.readAll (.start (p ++ '/' :: List.replicate (n + 1) ' '))).1 =
        (Token.readAll (.start (p ++ ['/']))).1 ++
          [.element (.literal (List.replicate (n + 1) ' '))]) ∧
    (BeginsAt (p ++ ['/']) ['/'] ∨
      BeginsAt (p ++ ['/']) ['/', '*', '/'] ∨ BeginsAt (p ++ ['/']) ['/', '*', '*', '/']) := by
  refine ⟨fun h n path => ?_, ?_, ?_⟩
  · have hspell : ∀ m, Spells ('/' :: List.replicate m ' ') [.element (.separator true)] :=
      fun m => .cons (.trailing fun x hx => List.eq_of_mem_replicate hx) .nil
    refine (accepts_congr_of_beginsAt (v := []) h ?_ (hspell 0) (hspell n) fun r => Iff.rfl).symm
    intro hmem
    exact absurd (List.eq_of_mem_replicate hmem) (by decide)
  · rintro (h | h) n
    · exact readAll_append_spaces (v := ['/', '*']) h .anySegment n
    · exact readAll_append_spaces (v := ['/', '*', '*']) h .manySegments n
  · obtain ⟨v, hv, rfl | hs⟩ := exists_beginsAt p []
    · exact Or.inl hv
    · cases hs with
      | anySegment => exact Or.inr (Or.inl hv)
      | manySegments => exact Or.inr (Or.inr hv)
      | choice hm hs => simp at hs

/-- The separator at the end of `a/*/` closes `/*/`, so the space of `a/*/ ` is a token. -/
theorem spaces_behind_final_separator_of_segment :
    BeginsAt ['a', '/', '*', '/'] ['/', '*', '/'] ∧
      (Token.readAll (.start ['a', '/', '*', '/', ' '])).1 =
        (Token.readAll (.start ['a', '/', '*', '/'])).1 ++ [.element (.literal [' '])] := by
  have h : BeginsAt ['a', '/', '*', '/'] ['/', '*', '/'] :=
    ⟨_, .cons (.literal (w := []) (by decide) (by decide) (by simp)
      (by simp [Token.delimiters])) (.nil _)⟩
  exact ⟨h, (spaces_behind_final_separator ['a', '/', '*']).2.1 (Or.inl h) 0⟩

/-- Spaces behind the last separator may count: `a/*/` matches `a/x`, and with a space behind it the
line does not. -/
theorem spaces_behind_segment_are_text :
    ¬ ∀ (p : List Char) (n : Nat) (path : List Char),
      (compile (p ++ '/' :: List.replicate n ' ')).accepts path = true ↔
        (compile (p ++ ['/'])).accepts path = true := by
  intro h
  have hspace := (h ['a', '/', '*'] 1 ['a', '/', 'x']).2 (by decide +kernel)
  exact absurd hspace (by decide +kernel)

/-! ## Adjacent wildcards -/

/-- `/**/` in front of `r`. -/
abbrev wildcard (r : List Char) : List Char := '/' :: '*' :: '*' :: '/' :: r

/-- `/**/` twice in front of `r`, with the separator between them in common. -/
abbrev wildcards (r : List Char) : List Char := '/' :: '*' :: '*' :: wildcard r

variable {q r path : List Char} {t : Token}

/-- Where a token begins at the first separator, what is left of the second wildcard comes to its
last separator. -/
theorem accepts_adjacent_of_beginsAt (h : BeginsAt (q ++ wildcards r) (wildcards r)) :
    (compile (q ++ wildcards r)).accepts path = true ↔
      (compile (q ++ wildcard ('/' :: r))).accepts path = true := by
  obtain ⟨ts, hts⟩ := Token.exists_spells ('/' :: r)
  refine accepts_congr_of_beginsAt (v := []) h (by simp)
    (.cons (.manySegments _) (.cons (.star _) (.cons (.star _) hts)))
    (.cons (.manySegments _) hts) fun s => ?_
  rw [Pattern.matches_manySegments_star, Pattern.matches_manySegments_star]

/-- If the last separator is a token as well, the line matches no more than with one wildcard. -/
theorem accepts_one_of_beginsAt (hr : Token.Begins ('/' :: r) (.element (.separator false)) r)
    (h : BeginsAt (q ++ wildcards r) (wildcards r))
    (hp : (compile (q ++ wildcards r)).accepts path = true) :
    (compile (q ++ wildcard r)).accepts path = true := by
  obtain ⟨ts, hts⟩ := Token.exists_spells r
  refine accepts_mono_of_beginsAt (v := []) h (by simp)
    (.cons (.manySegments _) (.cons (.star _) (.cons (.star _) (.cons hr hts))))
    (.cons (.manySegments _) hts) ?_ hp
  intro s hs
  rw [Pattern.matches_manySegments_star, Pattern.matches_manySegments_star] at hs
  refine Pattern.matches_of_manySegments ?_
  exact Pattern.matches_cons_mono (fun _ => Pattern.matches_of_separator) hs

/-- Where a token straddles the first separator, what is left of the first wildcard comes to a
star. -/
theorem accepts_adjacent_of_straddles (ht : ∀ u, Token.Begins (v ++ '/' :: u) t u)
    (h : BeginsAt (q ++ wildcards r) (v ++ wildcards r)) :
    (compile (q ++ wildcards r)).accepts path = true ↔
      (compile (q ++ '/' :: '*' :: wildcard r)).accepts path = true := by
  obtain ⟨ts, hts⟩ := Token.exists_spells r
  have hlast := Spells.cons (.manySegments r) hts
  refine accepts_congr_of_beginsAt h (by simp)
    (.cons (ht _) (.cons (.star _) (.cons (.star _) hlast)))
    (.cons (ht _) (.cons (.star _) hlast)) fun s => ?_
  exact ⟨Pattern.matches_cons_mono fun _ => Pattern.matches_star_star.1,
    Pattern.matches_cons_mono fun _ => Pattern.matches_star_star.2⟩

/-- If the last separator is a token then, the line matches no less than with one wildcard. -/
theorem accepts_of_one_of_straddles (ht : ∀ u, Token.Begins (v ++ '/' :: u) t u)
    (hr : Token.Begins ('/' :: r) (.element (.separator false)) r)
    (h : BeginsAt (q ++ wildcards r) (v ++ wildcards r))
    (hp : (compile (q ++ wildcard r)).accepts path = true) :
    (compile (q ++ wildcards r)).accepts path = true := by
  obtain ⟨ts, hts⟩ := Token.exists_spells r
  have hone : BeginsAt (q ++ wildcard r) (v ++ wildcard r) := h.replace_tail (by simp)
  refine accepts_mono_of_beginsAt hone (by simp)
    (.cons (ht _) (.cons (.star _) (.cons (.star _) (.cons hr hts))))
    (.cons (ht _) (.cons (.star _) (.cons (.star _) (.cons (.manySegments r) hts)))) ?_ hp
  intro s
  -- the separator that `/**/` takes the place of stands behind three tokens
  refine Pattern.matches_cons_mono fun _ => Pattern.matches_cons_mono fun _ => ?_
  exact Pattern.matches_cons_mono fun _ => Pattern.matches_of_separator

/-- Inside a class, both wildcards list the same members as one. -/
theorem accepts_adjacent_of_class {m : List Char} (hm : ']' ∉ m) (hr : ']' ∈ r)
    (h : BeginsAt (q ++ wildcards r) ('[' :: m ++ wildcards r)) :
    (compile (q ++ wildcards r)).accepts path = true ↔
      (compile (q ++ wildcard r)).accepts path = true := by
  obtain ⟨w, ts, hclass⟩ := exists_spells_class hm hr
  have htwo := hclass ['/', '*', '*', '/', '*', '*', '/'] (by decide)
  have hone := hclass ['/', '*', '*', '/'] (by decide)
  refine accepts_congr_of_beginsAt h (by simp) htwo hone fun s => ?_
  refine Pattern.matches_choice_congr fun x => ?_
  simp only [List.mem_append, List.mem_cons, List.not_mem_nil]
  grind

/-- The text is read in the same way behind a separator, which is a token of its own. -/
def StandsApart (r : List Char) : Prop :=
  (∃ x ∈ r, x ≠ ' ') ∧ ¬ ['*', '/'] <+: r ∧ ¬ ['*', '*', '/'] <+: r

theorem StandsApart.begins (h : StandsApart r) :
    Token.Begins ('/' :: r) (.element (.separator false)) r :=
  .separator h.2.2 h.2.1 h.1

/-- **Of two `/**/` that share a separator, only one is read as such**, since a separator belongs to
one token.  Where a token begins at the first separator, the first one is, and what is left of the
second comes to its last separator.  Where the first separator closes `/*/` or `/**/`, the second
one is, and what is left of the first comes to a star.  So the line matches no more than with one
wildcard in the first case, and no less in the second, if what follows stands apart.  Only inside a
class both come to one. -/
theorem adjacent_manySegments (q r : List Char) :
    (BeginsAt (q ++ wildcards r) (wildcards r) → ∀ path,
      ((compile (q ++ wildcards r)).accepts path = true ↔
        (compile (q ++ wildcard ('/' :: r))).accepts path = true) ∧
      (StandsApart r → (compile (q ++ wildcards r)).accepts path = true →
        (compile (q ++ wildcard r)).accepts path = true)) ∧
    (BeginsAt (q ++ wildcards r) ('/' :: '*' :: wildcards r) ∨
        BeginsAt (q ++ wildcards r) ('/' :: '*' :: '*' :: wildcards r) → ∀ path,
      ((compile (q ++ wildcards r)).accepts path = true ↔
        (compile (q ++ '/' :: '*' :: wildcard r)).accepts path = true) ∧
      (StandsApart r → (compile (q ++ wildcard r)).accepts path = true →
        (compile (q ++ wildcards r)).accepts path = true)) ∧
    (∀ m, BeginsAt (q ++ wildcards r) ('[' :: m ++ wildcards r) → ']' ∉ m → ']' ∈ r → ∀ path,
      (compile (q ++ wildcards r)).accepts path = true ↔
        (compile (q ++ wildcard r)).accepts path = true) ∧
    (BeginsAt (q ++ wildcards r) (wildcards r) ∨
      BeginsAt (q ++ wildcards r) ('/' :: '*' :: wildcards r) ∨
      BeginsAt (q ++ wildcards r) ('/' :: '*' :: '*' :: wildcards r) ∨
      ∃ m, BeginsAt (q ++ wildcards r) ('[' :: m ++ wildcards r) ∧ ']' ∉ m ∧ ']' ∈ r) := by
  refine ⟨?_, ?_, ?_, ?_⟩
  · intro h path
    exact ⟨accepts_adjacent_of_beginsAt h, fun ha => accepts_one_of_beginsAt ha.begins h⟩
  · rintro (h | h) path
    · have ht : ∀ u, Token.Begins (['/', '*'] ++ '/' :: u) (.element .anySegment) u := .anySegment
      exact ⟨accepts_adjacent_of_straddles ht h,
        fun ha => accepts_of_one_of_straddles ht ha.begins h⟩
    · have ht : ∀ u, Token.Begins (['/', '*', '*'] ++ '/' :: u) (.wildcard .manySegments) u :=
        .manySegments
      exact ⟨accepts_adjacent_of_straddles ht h,
        fun ha => accepts_of_one_of_straddles ht ha.begins h⟩
  · intro m h hm hr path
    exact accepts_adjacent_of_class hm hr h
  · obtain ⟨v, hv, rfl | hs⟩ := exists_beginsAt q ('*' :: '*' :: wildcard r)
    · exact Or.inl hv
    · cases hs with
      | anySegment => exact Or.inr (Or.inl hv)
      | manySegments => exact Or.inr (Or.inr (Or.inl hv))
      | @choice m _ hm hs => exact Or.inr (Or.inr (Or.inr ⟨m, hv, hm, by simpa using hs⟩))

/-- Behind `a/*` the first of two wildcards leaves a star: the separator that it begins with closes
`/*/`. -/
theorem adjacent_manySegments_of_segment :
    BeginsAt (['a', '/', '*'] ++ wildcards ['b']) ('/' :: '*' :: wildcards ['b']) ∧
      ∀ path, (compile (['a', '/', '*'] ++ wildcards ['b'])).accepts path = true ↔
        (compile (['a', '/', '*'] ++ '/' :: '*' :: wildcard ['b'])).accepts path = true := by
  have h : BeginsAt (['a', '/', '*'] ++ wildcards ['b']) ('/' :: '*' :: wildcards ['b']) :=
    ⟨_, .cons (.literal (w := []) (by decide) (by decide) (by simp)
      (by simp [Token.delimiters])) (.nil _)⟩
  exact ⟨h, fun path => ((adjacent_manySegments _ _).2.1 (Or.inl h) path).1⟩

/-- Two adjacent wildcards are not the same as one: `a/**/b` matches `a/b`, and `a/**/**/b` does
not. -/
theorem adjacent_manySegments_differ_from_one :
    ¬ ∀ q r path : List Char,
      (compile (q ++ wildcards r)).accepts path = true ↔
        (compile (q ++ wildcard r)).accepts path = true := by
  intro h
  have hone := (h ['a'] ['b'] ['a', '/', 'b']).2 (by decide +kernel)
  exact absurd hone (by decide +kernel)

/-! ## Wildcards in place of others -/

/-- **`/**/` can stand in place of a separator and of `/*/`.**  Behind a text that opens no class
and does not end with `/*` or `/**`, and in front of a text that stands apart, it matches all that
the separator matches there, and all that `/*/` matches. -/
theorem manySegments_subsumes (hc : '[' ∉ q) (ha : ¬ ['/', '*'] <:+ q)
    (hm : ¬ ['/', '*', '*'] <:+ q) (hr : StandsApart r)
    (h : (compile (q ++ '/' :: r)).accepts path = true ∨
      (compile (q ++ '/' :: '*' :: '/' :: r)).accepts path = true) :
    (compile (q ++ wildcard r)).accepts path = true := by
  have hbegin := beginsAt_of_not_straddles hc ha hm
  obtain ⟨ts, hts⟩ := Token.exists_spells r
  have hmany : Spells (wildcard r) (.wildcard .manySegments :: ts) := .cons (.manySegments r) hts
  rcases h with h | h
  · exact accepts_mono_of_beginsAt (v := []) (hbegin r) (by simp) (.cons hr.begins hts) hmany
      (fun _ => Pattern.matches_of_separator) h
  · exact accepts_mono_of_beginsAt (v := []) (hbegin ('*' :: '/' :: r)) (by simp)
      (.cons (.anySegment r) hts) hmany (fun _ => Pattern.matches_of_anySegment) h

/-- Between `!a/**/x?` and `*.c`, `/**/` matches what a separator matches, in `a/b/xy/m.c`, and what
`/*/` matches, in `a/b/xy/d/m.c`. -/
theorem manySegments_subsumes_of_wildcards :
    let q := ['!', 'a', '/', '*', '*', '/', 'x', '?']
    let r := ['*', '.', 'c']
    let short := ['a', '/', 'b', '/', 'x', 'y', '/', 'm', '.', 'c']
    let long := ['a', '/', 'b', '/', 'x', 'y', '/', 'd', '/', 'm', '.', 'c']
    ('[' ∉ q ∧ ¬ ['/', '*'] <:+ q ∧ ¬ ['/', '*', '*'] <:+ q ∧ StandsApart r) ∧
      (compile (q ++ '/' :: r)).accepts short = true ∧
      (compile (q ++ wildcard r)).accepts short = true ∧
      (compile (q ++ '/' :: '*' :: '/' :: r)).accepts long = true ∧
      (compile (q ++ wildcard r)).accepts long = true := by
  intro q r short long
  have hc : '[' ∉ q := by decide
  have ha : ¬ ['/', '*'] <:+ q := by decide
  have hm : ¬ ['/', '*', '*'] <:+ q := by decide
  have hr : StandsApart r := ⟨⟨'*', by simp [r], by decide⟩, by decide, by decide⟩
  have hshort : (compile (q ++ '/' :: r)).accepts short = true := by decide +kernel
  have hlong : (compile (q ++ '/' :: '*' :: '/' :: r)).accepts long = true := by decide +kernel
  exact ⟨⟨hc, ha, hm, hr⟩, hshort, manySegments_subsumes hc ha hm hr (Or.inl hshort),
    hlong, manySegments_subsumes hc ha hm hr (Or.inr hlong)⟩

/-! ## Adjacent stars -/

/-- Reading a line stops at a star or at a class that lists it, if the stars are not followed by a
separator. -/
theorem exists_beginsAt_star (q : List Char) (hr : (r.dropWhile (· = '*')).head? ≠ some '/') :
    ∃ v, BeginsAt (q ++ '*' :: r) (v ++ '*' :: r) ∧
      (v = [] ∨ ∃ m, v = '[' :: m ∧ ']' ∉ m ∧ ']' ∈ r) := by
  obtain ⟨ts, v, hread, hv⟩ := Token.exists_reads_star (unmarked q) hr
  exact ⟨v, ⟨ts, by rwa [unmarked_append (by simp)]⟩, hv⟩

/-- A star and two stars spell tokens that match the same, and so do a class that lists a star and
one that lists it twice. -/
theorem exists_spells_star (hv : v = [] ∨ ∃ m, v = '[' :: m ∧ ']' ∉ m ∧ ']' ∈ r) :
    ∃ us us', Spells (v ++ '*' :: r) us ∧ Spells (v ++ '*' :: '*' :: r) us' ∧
      ∀ s, Pattern.Matches us s ↔ Pattern.Matches us' s := by
  rcases hv with rfl | ⟨m, rfl, hm, hr⟩
  · obtain ⟨ts, hts⟩ := Token.exists_spells r
    exact ⟨_, _, .cons (.star _) hts, .cons (.star _) (.cons (.star _) hts),
      fun s => Pattern.matches_star_star.symm⟩
  · obtain ⟨w, ts, hclass⟩ := exists_spells_class hm hr
    refine ⟨_, _, hclass ['*'] (by decide), hclass ['*', '*'] (by decide), fun s => ?_⟩
    refine Pattern.matches_choice_congr fun x => ?_
    simp only [List.mem_append, List.mem_cons, List.not_mem_nil]
    grind

/-- **Of two adjacent stars one is enough**, wherever in a line they stand, unless the stars are
followed by a separator: with one in front of them as well, they could then be read with both. -/
theorem adjacent_stars {r : List Char} (hr : (r.dropWhile (· = '*')).head? ≠ some '/')
    (q path : List Char) :
    (compile (q ++ '*' :: r)).accepts path = true ↔
      (compile (q ++ '*' :: '*' :: r)).accepts path = true := by
  have hslash : ¬ ['/'] <+: r := by
    rintro ⟨s, rfl⟩
    exact hr rfl
  obtain ⟨v, hbegin, hv⟩ := exists_beginsAt_star q hr
  obtain ⟨us, us', hone, htwo, hm⟩ := exists_spells_star hv
  exact accepts_congr_of_replaceable hbegin (.star hslash) hone htwo hm

/-- Behind `a/` and in a class, two stars are as good as one: `a/**[x**]` matches `a/b*`, as
`a/*[x*]` does. -/
theorem adjacent_stars_of_class :
    (['[', 'x', '*', ']'].dropWhile (· = '*')).head? ≠ some '/' ∧
      ([']'].dropWhile (· = '*')).head? ≠ some '/' ∧
      (compile (['a', '/'] ++ '*' :: ['[', 'x', '*', ']'])).accepts ['a', '/', 'b', '*'] = true ∧
      (compile (['a', '/', '*', '*', '[', 'x'] ++ '*' :: '*' :: [']'])).accepts
        ['a', '/', 'b', '*'] = true := by
  have hstar : (['[', 'x', '*', ']'].dropWhile (· = '*')).head? ≠ some '/' := by decide
  have hclass : ([']'].dropWhile (· = '*')).head? ≠ some '/' := by decide
  have h : (compile (['a', '/'] ++ '*' :: ['[', 'x', '*', ']'])).accepts ['a', '/', 'b', '*'] =
      true := by decide +kernel
  have hone := (adjacent_stars hstar ['a', '/'] ['a', '/', 'b', '*']).1 h
  exact ⟨hstar, hclass, h, (adjacent_stars hclass ['a', '/', '*', '*', '[', 'x'] _).1 hone⟩

end Rule

end IgnoreRules
