/-
# Reading a pattern in parts

`Token.Reads` reads some tokens from the front of a pattern and says what is left of it, and
`Pattern.Takes` says what these tokens take from the front of a path.  So a pattern can be cut
between two tokens.

Where it may be cut is seen at a separator, in a text `u ++ '/' :: s`.  Either a token begins at the
separator, or a token that begins in `u` takes the separator with it, and three kinds of tokens can:
`/*/`, `/**/` and a class that is closed behind the separator.  At a star that no separator follows
it is simpler: if a token that begins in front of it takes the star, then it is a class.

* `Reads.replace_tail` : what is read in front of a text does not depend on that text, as far as it
  may be replaced;
* `exists_reads_to` : reading stops at the token that takes something of the text;
* `exists_reads`, `exists_reads_star` : which tokens these are at a separator and at a star;
* `Spells.reads_append` : a text without separators and classes is read in front of a separator as
  it is read alone;
* `matches_append_iff` : a path is matched by the parts of a pattern one after the other.
-/
import IgnoreRules.Proofs.PatternLanguage

namespace IgnoreRules

namespace Token

variable {s s' r u v : List Char} {t : Token} {ts us : List Token}

/-! ## Some of the tokens -/

/-- The text begins with the tokens one after the other, and `r` is the text behind them. -/
inductive Reads : List Char → List Token → List Char → Prop
  | nil (s : List Char) : Reads s [] s
  | cons {s r u : List Char} {t : Token} {ts : List Token} (h : Begins s t r) (hs : Reads r ts u) :
      Reads s (t :: ts) u

/-- What stands behind a token ends the text. -/
theorem Begins.suffix (h : Begins s t r) : r <:+ s := by
  cases h with
  | manySegments => exact List.suffix_append ['/', '*', '*', '/'] r
  | anySegment => exact List.suffix_append ['/', '*', '/'] r
  | trailing => exact List.nil_suffix
  | separator => exact List.suffix_cons '/' r
  | star => exact List.suffix_cons '*' r
  | option => exact List.suffix_cons '?' r
  | @choice members => exact ⟨'[' :: (members ++ [']']), by simp⟩
  | @literal x w => exact List.suffix_append (x :: w) r

/-- What stands behind the tokens ends the text. -/
theorem Reads.suffix (h : Reads s ts r) : r <:+ s := by
  induction h with
  | nil s => exact List.suffix_refl s
  | cons h _ ih => exact ih.trans h.suffix

/-- A text is spelled by the tokens read from its front and those that spell the rest. -/
theorem Reads.spells (h : Reads s ts r) (h' : Spells r us) : Spells s (ts ++ us) := by
  induction h with
  | nil => exact h'
  | cons h _ ih => exact .cons h (ih h')

/-- A spelling can be cut between any two tokens. -/
theorem exists_reads_of_spells (h : Spells s (ts ++ us)) : ∃ r, Reads s ts r ∧ Spells r us := by
  induction ts generalizing s with
  | nil => exact ⟨s, .nil s, h⟩
  | cons t ts ih =>
    obtain _ | ⟨hb, hs⟩ := h
    obtain ⟨r, hr, hu⟩ := ih hs
    exact ⟨r, .cons hb hr, hu⟩

/-- Every text spells some tokens. -/
theorem exists_spells (s : List Char) : ∃ ts, Spells s ts := by
  induction hn : s.length using Nat.strongRecOn generalizing s with
  | _ n ih =>
    by_cases hs : s = []
    · exact ⟨[], hs ▸ .nil⟩
    · obtain ⟨t, r, hb⟩ := exists_begins hs
      obtain ⟨ts, hts⟩ := ih r.length (hn ▸ hb.length_lt) r rfl
      exact ⟨t :: ts, .cons hb hts⟩

/-! ## Up to a place of the text -/

/-- The text starts with a character that ends a literal run. -/
def IsDelimited (s : List Char) : Prop := ∃ y r, s = y :: r ∧ y ∈ delimiters

theorem IsDelimited.ne_nil (h : IsDelimited s) : s ≠ [] := by
  obtain ⟨y, r, rfl, -⟩ := h
  exact List.cons_ne_nil y r

/-- No delimiter is a space. -/
theorem IsDelimited.nonblank (h : IsDelimited s) : ∃ y ∈ s, y ≠ ' ' := by
  obtain ⟨y, r, rfl, hy⟩ := h
  exact ⟨y, List.mem_cons_self, fun hsp => absurd hy (hsp ▸ by decide)⟩

/-- No delimiter is a negation mark. -/
theorem IsDelimited.no_mark (h : IsDelimited s) : ¬ ['!'] <+: s := by
  obtain ⟨y, r, rfl, hy⟩ := h
  intro hp
  obtain rfl : '!' = y := (List.cons_prefix_cons.1 hp).1
  exact absurd hy (by decide)

/-- A literal run in front of the text ends there. -/
theorem IsDelimited.head (h : IsDelimited s) {v : List Char}
    (hv : ∀ y ∈ v.head?, y ∈ delimiters) : ∀ y ∈ (v ++ s).head?, y ∈ delimiters := by
  cases v with
  | nil =>
    obtain ⟨y, r, rfl, hy⟩ := h
    simpa using hy
  | cons y v => simpa using hv

/-- What is read in front of `s` is read in front of `s'` in the same way: both start with a
delimiter, and `s'` closes no class and no wildcard of segments that `s` leaves open. -/
structure ReplaceableBy (s s' : List Char) : Prop where
  /-- A literal run ends in front of `s`. -/
  delimited : IsDelimited s
  /-- A literal run ends in front of `s'`. -/
  delimited' : IsDelimited s'
  /-- A class that `s'` closes is closed by `s`. -/
  choice : ']' ∈ s' → ']' ∈ s
  /-- A `/*/` that `s'` closes is closed by `s`. -/
  anySegment : ∀ v, ['*', '/'] <+: v ++ s' → ['*', '/'] <+: v ++ s
  /-- A `/**/` that `s'` closes is closed by `s`. -/
  manySegments : ∀ v, ['*', '*', '/'] <+: v ++ s' → ['*', '*', '/'] <+: v ++ s

/-- **A token in front of a text does not depend on that text**, as far as it may be replaced. -/
theorem Begins.replace_tail (hs : ReplaceableBy s s') (h : Begins (u ++ s) t (v ++ s)) :
    Begins (u ++ s') t (v ++ s') := by
  generalize hx : u ++ s = x at h
  generalize hy : v ++ s = y at h
  -- the token has the same text in both patterns: what is left ends in the text
  cases h with
  | manySegments =>
    subst hy
    obtain rfl : u = ['/', '*', '*', '/'] ++ v := List.append_cancel_right hx
    exact .manySegments _
  | anySegment =>
    subst hy
    obtain rfl : u = ['/', '*', '/'] ++ v := List.append_cancel_right hx
    exact .anySegment _
  | trailing => exact absurd (List.append_eq_nil_iff.1 hy).2 hs.delimited.ne_nil
  | separator hm ha =>
    subst hy
    obtain rfl : u = ['/'] ++ v := List.append_cancel_right hx
    obtain ⟨y, hmem, hsp⟩ := hs.delimited'.nonblank
    exact .separator (mt (hs.manySegments v) hm) (mt (hs.anySegment v) ha)
      ⟨y, List.mem_append_right v hmem, hsp⟩
  | star =>
    subst hy
    obtain rfl : u = ['*'] ++ v := List.append_cancel_right hx
    exact .star _
  | option =>
    subst hy
    obtain rfl : u = ['?'] ++ v := List.append_cancel_right hx
    exact .option _
  | @choice members _ hm =>
    subst hy
    have hu : u ++ s = '[' :: (members ++ ']' :: v) ++ s := by simpa using hx
    obtain rfl := List.append_cancel_right hu
    rw [List.cons_append, List.append_assoc]
    exact .choice _ hm
  | @literal x w _ hx' hc hw hr =>
    subst hy
    have hu : u ++ s = x :: (w ++ v) ++ s := by simpa using hx
    obtain rfl := List.append_cancel_right hu
    have hv : ∀ y ∈ v.head?, y ∈ delimiters := by
      cases v with
      | nil => simp
      | cons y v => simpa using hr
    have hc' : x = '[' → ']' ∉ w ++ (v ++ s') := by
      simp only [List.mem_append] at hc ⊢
      exact fun h hmem => hc h (hmem.imp_right (.imp_right hs.choice))
    rw [List.cons_append, List.append_assoc]
    exact .literal hx' hc' hw (hs.delimited'.head hv)

/-- **What is read in front of a text does not depend on that text**, as far as it may be
replaced. -/
theorem Reads.replace_tail (hs : ReplaceableBy s s') (h : Reads (u ++ s) ts (v ++ s)) :
    Reads (u ++ s') ts (v ++ s') := by
  induction ts generalizing u with
  | nil =>
    generalize hx : u ++ s = x at h
    generalize hy : v ++ s = y at h
    obtain _ | _ := h
    obtain rfl : u = v := List.append_cancel_right (hx.trans hy.symm)
    exact .nil _
  | cons t ts ih =>
    generalize hx : u ++ s = x at h
    obtain _ | ⟨hb, hr⟩ := h
    subst hx
    -- what is left behind the first token still ends in what is left behind all of them
    obtain ⟨w, hw⟩ := hr.suffix
    rw [← List.append_assoc] at hw
    subst hw
    exact .cons (hb.replace_tail hs) (ih hr)

/-- **Reading stops at the token that takes something of the text.** -/
theorem exists_reads_to (u : List Char) {s : List Char} (hs : s ≠ []) :
    ∃ ts v t r, Reads (u ++ s) ts (v ++ s) ∧ Begins (v ++ s) t r ∧ r.length < s.length := by
  induction hn : u.length using Nat.strongRecOn generalizing u with
  | _ n ih =>
    obtain ⟨t, r, hb⟩ := exists_begins (s := u ++ s) (by simp [hs])
    rcases Nat.lt_or_ge r.length s.length with hlt | hle
    · exact ⟨[], u, t, r, .nil _, hb, hlt⟩
    · -- the token ends in front of the text, so reading goes on behind it
      obtain ⟨w, rfl⟩ := List.suffix_of_suffix_length_le (List.suffix_append u s) hb.suffix hle
      have hlen := hb.length_lt
      simp only [List.length_append] at hlen
      obtain ⟨ts, v, t', r, hr, hb', hlt⟩ := ih w.length (by omega) w rfl
      exact ⟨t :: ts, v, t', r, .cons hb hr, hb', hlt⟩

/-- A token that takes the next character of a text takes some of what follows as well, and leaves
the rest. -/
theorem Begins.exists_taken {y : Char} (h : Begins (u ++ y :: s) t r) (hr : r.length ≤ s.length) :
    ∃ z, s = z ++ r ∧ Begins (u ++ y :: z ++ r) t r := by
  have hs : s <:+ u ++ y :: s := (List.suffix_cons y s).trans (List.suffix_append u _)
  obtain ⟨z, rfl⟩ := List.suffix_of_suffix_length_le h.suffix hs hr
  exact ⟨z, rfl, by simpa using h⟩

/-- A token that takes a separator or a star begins there, or it is a wildcard of segments or a
class.  Here `u` is what it takes in front, and `z` what it takes behind. -/
theorem Begins.cut_cases {y : Char} {z : List Char} (hy : y = '*' ∨ y = '/')
    (h : Begins (u ++ y :: z ++ r) t r) :
    u = [] ∨ u ++ y :: z = ['/', '*', '/'] ∨ u ++ y :: z = ['/', '*', '*', '/'] ∨
      ∃ m, u = '[' :: m ∧ ']' ∉ m ∧ ']' ∈ z := by
  rcases u with _ | ⟨x, u⟩
  · exact Or.inl rfl
  right
  generalize hx : x :: u ++ y :: z ++ r = s at h
  cases h with
  | manySegments => exact Or.inr (Or.inl (List.append_cancel_right hx))
  | anySegment => exact Or.inl (List.append_cancel_right hx)
  | trailing hsp =>
    have hmem : y = ' ' := hsp y ((List.cons.inj hx).2 ▸ by simp)
    exact absurd hmem (by rcases hy with rfl | rfl <;> decide)
  | separator =>
    have hw : x :: u ++ y :: z = ['/'] := List.append_cancel_right hx
    simp at hw
  | star =>
    have hw : x :: u ++ y :: z = ['*'] := List.append_cancel_right hx
    simp at hw
  | option =>
    have hw : x :: u ++ y :: z = ['?'] := List.append_cancel_right hx
    simp at hw
  | @choice members _ hm =>
    have hw : x :: u ++ y :: z ++ r = '[' :: (members ++ [']']) ++ r := by simpa using hx
    obtain ⟨rfl, hclass⟩ : x = '[' ∧ u ++ y :: z = members ++ [']'] :=
      List.cons.inj (List.append_cancel_right hw)
    have hne : y ≠ ']' := by rcases hy with rfl | rfl <;> decide
    refine Or.inr (Or.inr ⟨u, rfl, ?_⟩)
    rcases List.append_eq_append_iff.1 hclass with ⟨w, rfl, hz⟩ | ⟨w, rfl, hz⟩
    · -- the class is closed behind the character
      have hmem : ']' ∈ y :: z := hz ▸ by simp
      exact ⟨fun h => hm (List.mem_append_left w h),
        (List.mem_cons.1 hmem).resolve_left (Ne.symm hne)⟩
    · have hmem : y ∈ [']'] := hz ▸ by simp
      exact absurd (List.mem_singleton.1 hmem) hne
  | @literal x' w _ _ _ hw _ =>
    have hx' : x :: u ++ y :: z ++ r = x' :: w ++ r := hx
    obtain ⟨rfl, rfl⟩ := List.cons.inj (List.append_cancel_right hx')
    -- a literal run does not go on over a delimiter
    exact absurd (by rcases hy with rfl | rfl <;> decide) (hw y (by simp))

/-! ## Up to a separator -/

/-- A text that ends in its only separator is found in front of a separator where it stands up to
that one. -/
theorem prefix_append_slash_iff {w : List Char} (hw : '/' ∉ w) :
    w ++ ['/'] <+: v ++ '/' :: s ↔ w ++ ['/'] <+: v ++ ['/'] := by
  induction w generalizing v with
  | nil => cases v <;> simp
  | cons x w ih =>
    obtain ⟨hx, hw⟩ : '/' ≠ x ∧ '/' ∉ w := by simpa using hw
    cases v with
    | nil => simp [Ne.symm hx]
    | cons y v =>
      simp only [List.cons_append, List.cons_prefix_cons]
      exact and_congr_right fun _ => ih hw

/-- Whether such a text stands in front of a separator does not depend on what follows it. -/
theorem prefix_replace_tail {w : List Char} (hw : '/' ∉ w)
    (h : w ++ ['/'] <+: v ++ '/' :: s') : w ++ ['/'] <+: v ++ '/' :: s :=
  (prefix_append_slash_iff hw).2 ((prefix_append_slash_iff hw).1 h)

/-- **What follows a separator may be replaced**, unless a class could now be closed that was
not. -/
theorem ReplaceableBy.slash (hb : ']' ∈ s' → ']' ∈ s) :
    ReplaceableBy ('/' :: s) ('/' :: s') where
  delimited := ⟨'/', s, rfl, by decide⟩
  delimited' := ⟨'/', s', rfl, by decide⟩
  choice h := List.mem_cons_of_mem '/' (hb (by simpa using h))
  anySegment _ := prefix_replace_tail (w := ['*']) (by decide)
  manySegments _ := prefix_replace_tail (w := ['*', '*']) (by decide)

/-- `v` is the front of a token that also takes the separator behind it; `s` is what follows the
separator. -/
inductive Straddles : List Char → List Char → Prop
  | anySegment (s : List Char) : Straddles ['/', '*'] s
  | manySegments (s : List Char) : Straddles ['/', '*', '*'] s
  | choice {m s : List Char} (hm : ']' ∉ m) (hs : ']' ∈ s) : Straddles ('[' :: m) s

/-- A token that takes the separator begins at it or straddles it. -/
theorem Begins.straddles (h : Begins (u ++ '/' :: s) t r) (hr : r.length ≤ s.length) :
    u = [] ∨ Straddles u s := by
  obtain ⟨z, rfl, hcut⟩ := h.exists_taken hr
  rcases hcut.cut_cases (Or.inr rfl) with hu | hw | hw | ⟨m, rfl, hm, hz⟩
  · exact Or.inl hu
  · rcases u with _ | ⟨x, _ | ⟨y, _ | ⟨_, u⟩⟩⟩
    · exact Or.inl rfl
    · simp at hw
    · obtain ⟨rfl, rfl, -⟩ : x = '/' ∧ y = '*' ∧ z = [] := by simpa using hw
      exact Or.inr (.anySegment _)
    · simp at hw
  · rcases u with _ | ⟨x, _ | ⟨y, _ | ⟨a, _ | ⟨_, u⟩⟩⟩⟩
    · exact Or.inl rfl
    · simp at hw
    · simp at hw
    · obtain ⟨rfl, rfl, rfl, -⟩ : x = '/' ∧ y = '*' ∧ a = '*' ∧ z = [] := by simpa using hw
      exact Or.inr (.manySegments _)
    · simp at hw
  · exact Or.inr (.choice hm (List.mem_append_left r hz))

/-- **Reading stops at the separator or at the token that straddles it.** -/
theorem exists_reads (u s : List Char) :
    ∃ ts v, Reads (u ++ '/' :: s) ts (v ++ '/' :: s) ∧ (v = [] ∨ Straddles v s) := by
  obtain ⟨ts, v, t, r, hr, hb, hlen⟩ := exists_reads_to u (List.cons_ne_nil '/' s)
  exact ⟨ts, v, hr, hb.straddles (Nat.le_of_lt_succ hlen)⟩

/-- A token of a text without separators and classes is read in the same way in front of a
separator. -/
theorem Begins.append_slash (h : Begins u t v) (hu : '/' ∉ u) (hc : '[' ∉ u) (s : List Char) :
    Begins (u ++ '/' :: s) t (v ++ '/' :: s) := by
  cases h with
  | manySegments => simp at hu
  | anySegment => simp at hu
  | trailing => simp at hu
  | separator => simp at hu
  | star => exact .star _
  | option => exact .option _
  | choice => simp at hc
  | @literal x w _ hx _ hw hr =>
    have hslash : IsDelimited ('/' :: s) := ⟨'/', s, rfl, by decide⟩
    have hx' : x ≠ '[' := fun h => hc (by simp [h])
    rw [List.cons_append, List.append_assoc]
    exact .literal hx (fun h => absurd h hx') hw (hslash.head hr)

/-- **A text without separators and classes** is read in front of a separator as it is read
alone. -/
theorem Spells.reads_append (h : Spells u ts) (hu : '/' ∉ u) (hc : '[' ∉ u) (s : List Char) :
    Reads (u ++ '/' :: s) ts ('/' :: s) := by
  induction h with
  | nil => exact .nil _
  | cons hb _ ih =>
    have hsub := hb.suffix.subset
    exact .cons (hb.append_slash hu hc s) (ih (fun h => hu (hsub h)) fun h => hc (hsub h))

/-! ## Up to a star -/

/-- **A star may be replaced by two**, unless they close `/**/`. -/
theorem ReplaceableBy.star (hs : ¬ ['/'] <+: s) : ReplaceableBy ('*' :: s) ('*' :: '*' :: s) where
  delimited := ⟨'*', s, rfl, by decide⟩
  delimited' := ⟨'*', '*' :: s, rfl, by decide⟩
  choice h := by simpa using h
  anySegment v h := by
    rcases v with _ | ⟨x, _ | ⟨y, v⟩⟩
    · simp at h
    · simp at h
    · simpa using h
  manySegments v h := by
    rcases v with _ | ⟨x, _ | ⟨y, _ | ⟨z, v⟩⟩⟩
    · exact absurd (by simpa using h) hs
    · simp at h
    · simp at h
    · simpa using h

/-- **Reading stops at a star or at a class that lists it**, if the stars are not followed by a
separator. -/
theorem exists_reads_star (u : List Char) (hs : (s.dropWhile (· = '*')).head? ≠ some '/') :
    ∃ ts v, Reads (u ++ '*' :: s) ts (v ++ '*' :: s) ∧
      (v = [] ∨ ∃ m, v = '[' :: m ∧ ']' ∉ m ∧ ']' ∈ s) := by
  obtain ⟨ts, v, t, r, hr, hb, hlen⟩ := exists_reads_to u (List.cons_ne_nil '*' s)
  refine ⟨ts, v, hr, ?_⟩
  obtain ⟨z, rfl, hcut⟩ := hb.exists_taken (Nat.le_of_lt_succ hlen)
  rcases hcut.cut_cases (Or.inl rfl) with hv | hw | hw | ⟨m, rfl, hm, hz⟩
  · exact Or.inl hv
  · -- `/*/` would have to end with a separator behind the star
    rcases v with _ | ⟨x, _ | ⟨_, _ | ⟨_, v⟩⟩⟩
    · exact Or.inl rfl
    · obtain ⟨rfl, rfl⟩ : x = '/' ∧ z = ['/'] := by simpa using hw
      exact absurd rfl hs
    · simp at hw
    · simp at hw
  · rcases v with _ | ⟨x, _ | ⟨y, _ | ⟨_, _ | ⟨_, v⟩⟩⟩⟩
    · exact Or.inl rfl
    · obtain ⟨rfl, rfl⟩ : x = '/' ∧ z = ['*', '/'] := by simpa using hw
      exact absurd rfl hs
    · obtain ⟨rfl, rfl, rfl⟩ : x = '/' ∧ y = '*' ∧ z = ['/'] := by simpa using hw
      exact absurd rfl hs
    · simp at hw
    · simp at hw
  · exact Or.inr ⟨m, rfl, hm, List.mem_append_left r hz⟩

end Token

/-! ## Some of the path -/

namespace Pattern

variable {s r : List Char} {ts us vs : List Token}

/-- The tokens can read `s` one after the other and leave `r`. -/
def Takes : List Token → List Char → List Char → Prop
  | [], s, r => s = r
  | t :: ts, s, r => ∃ m, t.Takes s m ∧ Takes ts m r

/-- **A path is matched by the parts of a pattern one after the other.** -/
theorem matches_append_iff : Matches (ts ++ us) s ↔ ∃ r, Takes ts s r ∧ Matches us r := by
  induction ts generalizing s with
  | nil => simp [Takes]
  | cons t ts ih =>
    constructor
    · rintro ⟨m, ht, h⟩
      obtain ⟨r, hr, hu⟩ := ih.1 h
      exact ⟨r, ⟨m, ht, hr⟩, hu⟩
    · rintro ⟨r, ⟨m, ht, hr⟩, hu⟩
      exact ⟨m, ht, ih.2 ⟨r, hr, hu⟩⟩

/-- What follows a token may be replaced by what matches more. -/
theorem matches_cons_mono {t : Token} (h : ∀ r, Matches us r → Matches vs r)
    (hm : Matches (t :: us) s) : Matches (t :: vs) s := by
  obtain ⟨r, ht, hu⟩ := hm
  exact ⟨r, ht, h r hu⟩

/-- What follows a part of a pattern may be replaced by what matches more. -/
theorem matches_append_mono (h : ∀ r, Matches us r → Matches vs r) (hm : Matches (ts ++ us) s) :
    Matches (ts ++ vs) s := by
  obtain ⟨r, hr, hu⟩ := matches_append_iff.1 hm
  exact matches_append_iff.2 ⟨r, hr, h r hu⟩

/-- What follows a part of a pattern may be replaced by what matches the same. -/
theorem matches_append_congr (h : ∀ r, Matches us r ↔ Matches vs r) :
    Matches (ts ++ us) s ↔ Matches (ts ++ vs) s :=
  ⟨matches_append_mono fun r => (h r).1, matches_append_mono fun r => (h r).2⟩

end Pattern

namespace Rule

/-- A line that is not blank matches the texts that the tokens it spells can read. -/
theorem accepts_iff_of_spells {line path : List Char} {ts : List Token}
    (h : Token.Spells (unmarked line) ts) (hb : ∃ x ∈ line, x ≠ ' ') :
    (compile line).accepts path = true ↔ Pattern.Matches ts path := by
  rw [accepts_compile_iff, spells_unmarked_iff.1 h]
  exact and_iff_right hb

/-- Removing a mark removes nothing else. -/
theorem unmarked_suffix (line : List Char) : unmarked line <:+ line := by
  unfold unmarked
  split
  · exact List.suffix_cons _ _
  · exact List.suffix_refl _

/-- A line without a mark is read as it is. -/
theorem unmarked_of_no_mark {line : List Char} (h : ¬ ['!'] <+: line) : unmarked line = line := by
  unfold unmarked
  split
  · exact absurd (by simp) h
  · rfl

/-- A line is marked where the front of it is, if no mark stands behind that. -/
theorem unmarked_append {u s : List Char} (hs : ¬ ['!'] <+: s) :
    unmarked (u ++ s) = unmarked u ++ s := by
  cases u with
  | nil => exact unmarked_of_no_mark hs
  | cons x u =>
    by_cases hx : x = '!'
    · rw [hx]
      rfl
    · have hmark : ∀ r, ¬ ['!'] <+: x :: r := fun r hr => hx (by simpa [eq_comm] using hr)
      rw [List.cons_append, unmarked_of_no_mark (hmark _), unmarked_of_no_mark (hmark _),
        List.cons_append]

theorem unmarked_append_slash (u s : List Char) :
    unmarked (u ++ '/' :: s) = unmarked u ++ '/' :: s :=
  unmarked_append (by simp)

end Rule

end IgnoreRules
