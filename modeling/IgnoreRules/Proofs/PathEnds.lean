/-
# The end of a path

A separator at the end of a path may be read by the token that is to take it, by a trailing
separator of the line, or by nothing but the end of the line itself.  This module says what it
does to a match, and how many separators there may be.

* `trailing_separator_keeps_match` : whatever is matched is matched with a separator behind it;
* `Begins.takes_iff_of_isPlain` : without wildcards, a token takes the text it is written with;
* `plain_line_matches_own_text` : so such a line matches its own text, with one separator more or,
  if it ends with one itself, with one less.
-/
import IgnoreRules.Proofs.PatternSegments

namespace IgnoreRules

/-! ## A separator behind the path -/

section

variable {s r : List Char} {ts : List Token}

/-- A token that takes something takes it in front of one more separator as well.  It leaves that
separator, unless it had taken the text to its end. -/
theorem Token.Takes.append_slash {t : Token} (h : t.Takes s r) :
    t.Takes (s ++ ['/']) (r ++ ['/']) ∨ r = [] ∧ t.Takes (s ++ ['/']) [] := by
  rcases t with (w | _ | members | _ | trailing) | (_ | _)
  · obtain rfl : s = w ++ r := h
    exact Or.inl (List.append_assoc w r ['/'])
  · obtain ⟨w, hw, rfl | ⟨rfl, rfl⟩⟩ := h
    · exact Or.inl ⟨w, hw, Or.inl (by simp)⟩
    · -- the last segment of a path gets its second separator
      exact Or.inr ⟨rfl, w, hw, Or.inl (by simp)⟩
  · obtain ⟨x, hx, rfl⟩ := h
    exact Or.inl ⟨x, hx, rfl⟩
  · obtain ⟨x, rfl⟩ := h
    exact Or.inl ⟨x, rfl⟩
  · rcases h with rfl | ⟨-, rfl, rfl⟩
    · exact Or.inl (Or.inl rfl)
    · -- a trailing separator is there now, and was left out before
      exact Or.inr ⟨rfl, Or.inl rfl⟩
  · obtain ⟨w, hw, rfl⟩ := h
    exact Or.inl ⟨w, hw, List.append_assoc w r ['/']⟩
  · obtain ⟨w, rfl⟩ := h
    exact Or.inl ⟨w, by simp⟩

/-- Tokens that match a text match it with a separator behind it, unless one stands there. -/
theorem Pattern.matches_append_slash (hs : s.getLast? ≠ some '/') (h : Pattern.Matches ts s) :
    Pattern.Matches ts (s ++ ['/']) := by
  induction ts generalizing s with
  | nil =>
    rcases h with rfl | rfl
    · exact Or.inr rfl
    · exact absurd rfl hs
  | cons t ts ih =>
    obtain ⟨r, ht, hm⟩ := h
    rcases ht.append_slash with h | ⟨rfl, h⟩
    · obtain ⟨a, rfl⟩ := ht.suffix
      exact ⟨r ++ ['/'], h, ih (Token.getLast?_ne_of_append hs) hm⟩
    · exact ⟨[], h, hm⟩

end

namespace Rule

/-- **A separator at the end of a path never loses a match.** -/
theorem trailing_separator_keeps_match {line path : List Char} (hs : path.getLast? ≠ some '/')
    (h : (compile line).accepts path = true) : (compile line).accepts (path ++ ['/']) = true := by
  obtain ⟨hb, hm⟩ := accepts_compile_iff.1 h
  exact accepts_compile_iff.2 ⟨hb, Pattern.matches_append_slash hs hm⟩

/-- The line `a/*/*` matches `a/x`, where its stars and its `/*/` leave nothing, and `a/x/`. -/
theorem trailing_separator_keeps_match_of_last_segment :
    ['a', '/', 'x'].getLast? ≠ some '/' ∧
      (compile ['a', '/', '*', '/', '*']).accepts ['a', '/', 'x'] = true ∧
      (compile ['a', '/', '*', '/', '*']).accepts (['a', '/', 'x'] ++ ['/']) = true := by
  have hs : ['a', '/', 'x'].getLast? ≠ some '/' := by decide
  have h : (compile ['a', '/', '*', '/', '*']).accepts ['a', '/', 'x'] = true := by
    decide +kernel
  exact ⟨hs, h, trailing_separator_keeps_match hs h⟩

end Rule

/-! ## Lines without wildcards -/

namespace Pattern

/-- A text without wildcards: all of its characters stand for themselves. -/
structure IsPlain (s : List Char) : Prop where
  /-- It holds no star. -/
  no_star : '*' ∉ s
  /-- It holds no `?`. -/
  no_option : '?' ∉ s
  /-- It closes no class: no `]` stands behind a `[`. -/
  no_class : ¬ List.Sublist ['[', ']'] s

instance (s : List Char) : Decidable (IsPlain s) :=
  decidable_of_iff ('*' ∉ s ∧ '?' ∉ s ∧ ¬ List.Sublist ['[', ']'] s)
    ⟨fun h => ⟨h.1, h.2.1, h.2.2⟩, fun h => ⟨h.1, h.2, h.3⟩⟩

theorem IsPlain.of_suffix {s r : List Char} (h : IsPlain s) (hr : r <:+ s) : IsPlain r where
  no_star hm := h.no_star (hr.subset hm)
  no_option hm := h.no_option (hr.subset hm)
  no_class hm := h.no_class (hm.trans hr.sublist)

end Pattern

namespace Token

open Pattern (IsPlain)

variable {s r : List Char} {t : Token} {ts : List Token}

/-- **Without wildcards a token takes the text it is written with**, and nothing else.  A trailing
separator is the one exception. -/
theorem Begins.takes_iff_of_isPlain (h : Begins s t r) (hp : IsPlain s)
    (ht : .element (.separator true) ≠ t) : ∃ w, s = w ++ r ∧ ∀ p m, t.Takes p m ↔ p = w ++ m := by
  cases h with
  | manySegments => exact absurd (by simp) hp.no_star
  | anySegment => exact absurd (by simp) hp.no_star
  | trailing => exact absurd rfl ht
  | separator =>
    refine ⟨['/'], rfl, fun p m => ?_⟩
    show p = '/' :: m ∨ false = true ∧ _ ↔ p = '/' :: m
    simp
  | star => exact absurd (by simp) hp.no_star
  | option => exact absurd (by simp) hp.no_option
  | @choice members r =>
    have hclose : List.Sublist [']'] (members ++ ']' :: r) := by simp
    exact absurd (hclose.cons_cons '[') hp.no_class
  | @literal x w => exact ⟨x :: w, rfl, fun p m => Iff.rfl⟩

/-- Tokens of such a text take what they are written with, one after the other. -/
theorem Reads.takes_iff_of_isPlain (h : Reads s ts r) (hp : IsPlain s)
    (ht : .element (.separator true) ∉ ts) :
    ∃ w, s = w ++ r ∧ ∀ p m, Pattern.Takes ts p m ↔ p = w ++ m := by
  induction h with
  | nil s => exact ⟨[], rfl, fun p m => Iff.rfl⟩
  | cons hb _ ih =>
    obtain ⟨htrail, hts⟩ := not_or.1 (mt List.mem_cons.2 ht)
    obtain ⟨w, hw, htake⟩ := hb.takes_iff_of_isPlain hp htrail
    obtain ⟨w', hw', htakes⟩ := ih (hp.of_suffix hb.suffix) hts
    refine ⟨w ++ w', by rw [hw, hw', List.append_assoc], fun p m => ?_⟩
    simp only [Pattern.Takes, htake, htakes, exists_eq_right, List.append_assoc]

/-- Behind a trailing separator nothing is left, and the text ends with it and spaces. -/
theorem Reads.ends_with_separator (h : Reads s ts r) (ht : .element (.separator true) ∈ ts) :
    r = [] ∧ ∃ w n, s = w ++ '/' :: List.replicate n ' ' := by
  induction h with
  | nil => simp at ht
  | cons hb hs ih =>
    rcases List.mem_cons.1 ht with rfl | hmem
    · cases hb with
      | @trailing spaces hsp =>
        exact ⟨List.suffix_nil.1 hs.suffix, [], _, by rw [← List.eq_replicate_of_mem hsp]; rfl⟩
    · obtain ⟨hr, w, n, rfl⟩ := ih hmem
      obtain ⟨a, rfl⟩ := hb.suffix
      exact ⟨hr, a ++ w, n, by rw [List.append_assoc]⟩

/-- The tokens that a text spells are read to its end. -/
theorem Spells.reads (h : Spells s ts) : Reads s ts [] := by
  induction h with
  | nil => exact .nil []
  | cons hb _ ih => exact .cons hb ih

/-- A trailing separator matches up to two separators: itself, and the one at the end. -/
theorem matches_trailing_iff :
    Pattern.Matches [.element (.separator true)] s ↔ s = [] ∨ s = ['/'] ∨ s = ['/', '/'] := by
  constructor
  · rintro ⟨r, rfl | ⟨-, rfl, -⟩, rfl | rfl⟩ <;> simp
  · rintro (rfl | rfl | rfl)
    · exact ⟨[], Or.inr ⟨rfl, rfl, rfl⟩, Or.inl rfl⟩
    · exact ⟨[], Or.inl rfl, Or.inl rfl⟩
    · exact ⟨['/'], Or.inl rfl, Or.inr rfl⟩

/-- Plain text in front of other tokens has to stand in front of what they match. -/
theorem Reads.matches_append_iff_of_isPlain {us : List Token} {w : List Char}
    (h : Reads (w ++ r) ts r) (hp : IsPlain (w ++ r)) (ht : .element (.separator true) ∉ ts)
    (p : List Char) : Pattern.Matches (ts ++ us) p ↔ ∃ m, p = w ++ m ∧ Pattern.Matches us m := by
  obtain ⟨w', hw, htake⟩ := h.takes_iff_of_isPlain hp ht
  obtain rfl : w = w' := List.append_cancel_right hw
  simp only [Pattern.matches_append_iff, htake]

/-- **Plain text with a separator and spaces at its end** matches what stands in front of that
separator, with at most two separators behind it. -/
theorem exists_spells_of_separator {w : List Char} {n : Nat}
    (hp : IsPlain (w ++ '/' :: List.replicate n ' ')) :
    ∃ ts, Spells (w ++ '/' :: List.replicate n ' ') ts ∧
      ∀ p, Pattern.Matches ts p ↔ p = w ∨ p = w ++ ['/'] ∨ p = w ++ ['/', '/'] := by
  have hb : Begins ('/' :: List.replicate n ' ') (.element (.separator true)) [] :=
    .trailing fun x hx => List.eq_of_mem_replicate hx
  obtain ⟨ts, v, hr, hv⟩ := exists_reads w (List.replicate n ' ')
  -- no other token takes the separator: it would have to be a wildcard
  obtain rfl : v = [] := by
    refine hv.resolve_right fun hst => ?_
    have hsub := hr.suffix.subset
    cases hst with
    | anySegment => exact hp.no_star (hsub (by simp))
    | manySegments => exact hp.no_star (hsub (by simp))
    | choice _ hmem => exact absurd (List.eq_of_mem_replicate hmem) (by decide)
  have ht : .element (.separator true) ∉ ts := fun hmem =>
    absurd (hr.ends_with_separator hmem).1 (by simp)
  refine ⟨_, hr.spells (.cons hb .nil), fun p => ?_⟩
  rw [hr.matches_append_iff_of_isPlain hp ht]
  simp only [matches_trailing_iff]
  constructor
  · rintro ⟨m, rfl, rfl | rfl | rfl⟩ <;> simp
  · rintro (rfl | rfl | rfl)
    · exact ⟨[], by simp, by simp⟩
    · exact ⟨['/'], rfl, by simp⟩
    · exact ⟨['/', '/'], rfl, by simp⟩

/-- **Plain text with another end** matches itself, with at most one separator behind it. -/
theorem exists_spells_of_no_separator (hp : IsPlain s)
    (hs : ¬ ∃ w n, s = w ++ '/' :: List.replicate n ' ') :
    ∃ ts, Spells s ts ∧ ∀ p, Pattern.Matches ts p ↔ p = s ∨ p = s ++ ['/'] := by
  obtain ⟨ts, hts⟩ := exists_spells s
  have ht : .element (.separator true) ∉ ts := fun hmem => hs (hts.reads.ends_with_separator hmem).2
  have hr : Reads (s ++ []) ts [] := by rw [List.append_nil]; exact hts.reads
  refine ⟨ts, hts, fun p => ?_⟩
  have hm : Pattern.Matches (ts ++ []) p ↔ ∃ m, p = s ++ m ∧ Pattern.Matches [] m :=
    hr.matches_append_iff_of_isPlain (by rwa [List.append_nil]) ht p
  rw [List.append_nil] at hm
  rw [hm]
  constructor
  · rintro ⟨m, rfl, rfl | rfl⟩ <;> simp
  · rintro (rfl | rfl)
    · exact ⟨[], by simp, Or.inl rfl⟩
    · exact ⟨['/'], rfl, Or.inr rfl⟩

end Token

namespace Rule

open Pattern (IsPlain)

/-- **A line without wildcards matches its own text only.**  Behind its negation mark, if it ends
with a separator and spaces, it matches what stands in front of these, alone, with one separator or
with two.  Otherwise it matches its text, alone or with one separator. -/
theorem plain_line_matches_own_text {line : List Char} (hb : ∃ x ∈ line, x ≠ ' ')
    (hp : IsPlain line) :
    (∀ w n, unmarked line = w ++ '/' :: List.replicate n ' ' → ∀ path,
      (compile line).accepts path = true ↔
        path = w ∨ path = w ++ ['/'] ∨ path = w ++ ['/', '/']) ∧
    ((¬ ∃ w n, unmarked line = w ++ '/' :: List.replicate n ' ') → ∀ path,
      (compile line).accepts path = true ↔
        path = unmarked line ∨ path = unmarked line ++ ['/']) := by
  have hplain : IsPlain (unmarked line) := hp.of_suffix (unmarked_suffix line)
  constructor
  · intro w n hw path
    rw [hw] at hplain
    obtain ⟨ts, hts, hm⟩ := Token.exists_spells_of_separator hplain
    rw [accepts_iff_of_spells (hw ▸ hts) hb, hm]
  · intro hs path
    obtain ⟨ts, hts, hm⟩ := Token.exists_spells_of_no_separator hplain hs
    rw [accepts_iff_of_spells hts hb, hm]

/-- Behind its mark, `! ]a//[b/ ` ends with a separator and a space, and ` ]a//[b` does not. -/
theorem plain_line_matches_own_text_of_brackets :
    IsPlain ['!', ' ', ']', 'a', '/', '/', '[', 'b', '/', ' '] ∧
      (∀ path, (compile ['!', ' ', ']', 'a', '/', '/', '[', 'b', '/', ' ']).accepts path = true ↔
        path = [' ', ']', 'a', '/', '/', '[', 'b'] ∨
          path = [' ', ']', 'a', '/', '/', '[', 'b', '/'] ∨
          path = [' ', ']', 'a', '/', '/', '[', 'b', '/', '/']) ∧
      IsPlain [' ', ']', 'a', '/', '/', '[', 'b'] ∧
      ∀ path, (compile [' ', ']', 'a', '/', '/', '[', 'b']).accepts path = true ↔
        path = [' ', ']', 'a', '/', '/', '[', 'b'] ∨
          path = [' ', ']', 'a', '/', '/', '[', 'b', '/'] := by
  have hfirst : IsPlain ['!', ' ', ']', 'a', '/', '/', '[', 'b', '/', ' '] := by decide
  have hsecond : IsPlain [' ', ']', 'a', '/', '/', '[', 'b'] := by decide
  refine ⟨hfirst, fun path => ?_, hsecond, fun path => ?_⟩
  · exact (plain_line_matches_own_text ⟨'!', by simp, by decide⟩ hfirst).1 _ 1 rfl path
  · refine (plain_line_matches_own_text ⟨']', by simp, by decide⟩ hsecond).2 ?_ path
    rintro ⟨w, n, h⟩
    -- the last character is neither a separator nor a space
    have hlast : some 'b' = (w ++ '/' :: List.replicate n ' ').getLast? := congrArg List.getLast? h
    rw [List.getLast?_append, List.getLast?_cons, Option.some_or, ← List.getLast?_cons] at hlast
    have hmem := List.mem_of_getLast? hlast.symm
    simp at hmem

end Rule

end IgnoreRules
