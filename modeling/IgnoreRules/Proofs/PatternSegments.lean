/-
# Patterns segment by segment

A component is a part of a line that has something to match and cannot leave its segment: it holds
neither a separator nor `?` nor a class.  This module relates the components of a line to the
segments of the paths that it matches.

* `takes_iff_of_staysInSegment` : what a component takes lies in front of the next separator;
* `accepts_append_slash_iff` : at its first separator, a line is matched part by part;
* `count_separators_of_accepts` : a line of components matches paths of as many segments, but for
  one that a final `/*/` may leave out.
-/
import IgnoreRules.Proofs.PatternParts

namespace IgnoreRules

/-! ## Tokens that stay in a segment -/

namespace Token

variable {s r u a : List Char} {t : Token} {ts us : List Token}

/-- The token reads no separator. -/
def StaysInSegment : Token → Prop
  | .element (.literal w) => '/' ∉ w
  | .wildcard .star => True
  | _ => False

/-- What such a token takes lies in front of the next separator, and taking it does not depend on
what is left. -/
theorem StaysInSegment.takes_iff (h : t.StaysInSegment) :
    t.Takes s r ↔ ∃ a, s = a ++ r ∧ '/' ∉ a ∧ t.Takes a [] := by
  rcases t with (w | _ | _ | _ | _) | (_ | _)
  case element.literal =>
    show s = w ++ r ↔ ∃ a, s = a ++ r ∧ '/' ∉ a ∧ a = w ++ []
    simp only [List.append_nil]
    constructor
    · rintro rfl
      exact ⟨w, rfl, h, rfl⟩
    · rintro ⟨a, rfl, -, rfl⟩
      rfl
  case wildcard.star =>
    show (∃ w, '/' ∉ w ∧ s = w ++ r) ↔ ∃ a, s = a ++ r ∧ '/' ∉ a ∧ ∃ w, '/' ∉ w ∧ a = w ++ []
    simp only [List.append_nil]
    constructor
    · rintro ⟨w, hw, rfl⟩
      exact ⟨w, rfl, hw, w, hw, rfl⟩
    · rintro ⟨a, rfl, ha, -⟩
      exact ⟨a, ha, rfl⟩
  all_goals exact h.elim

/-- **What such tokens take lies in front of the next separator**, and taking it does not depend on
what is left. -/
theorem takes_iff_of_staysInSegment (h : ∀ t ∈ ts, t.StaysInSegment) :
    Pattern.Takes ts s r ↔ ∃ a, s = a ++ r ∧ '/' ∉ a ∧ Pattern.Takes ts a [] := by
  induction ts generalizing s r with
  | nil =>
    constructor
    · rintro rfl
      exact ⟨[], rfl, by simp, rfl⟩
    · rintro ⟨_, rfl, -, rfl⟩
      rfl
  | cons t ts ih =>
    obtain ⟨ht, hts⟩ := List.forall_mem_cons.1 h
    constructor
    · rintro ⟨m, hm, hr⟩
      obtain ⟨a, rfl, ha, hta⟩ := ht.takes_iff.1 hm
      obtain ⟨b, rfl, hb, htb⟩ := (ih hts).1 hr
      refine ⟨a ++ b, by simp, by simp [ha, hb], b, ?_, htb⟩
      exact ht.takes_iff.2 ⟨a, rfl, ha, hta⟩
    · rintro ⟨_, rfl, hab, b, hm, hr⟩
      obtain ⟨a, rfl, ha, hta⟩ := ht.takes_iff.1 hm
      have hb : '/' ∉ b := fun h => hab (List.mem_append_right a h)
      refine ⟨b ++ r, ?_, (ih hts).2 ⟨b, rfl, hb, hr⟩⟩
      exact ht.takes_iff.2 ⟨a, by simp, ha, hta⟩

/-- A text without separators is matched by such tokens where they take all of it. -/
theorem matches_iff_of_staysInSegment (h : ∀ t ∈ ts, t.StaysInSegment) (ha : '/' ∉ a) :
    Pattern.Matches ts a ↔ Pattern.Takes ts a [] := by
  have happ : Pattern.Matches (ts ++ []) a ↔ _ := Pattern.matches_append_iff
  rw [List.append_nil] at happ
  rw [happ]
  constructor
  · rintro ⟨r, hr, rfl | rfl⟩
    · exact hr
    · obtain ⟨b, rfl, -⟩ := (takes_iff_of_staysInSegment h).1 hr
      simp at ha
  · intro hr
    exact ⟨[], hr, Or.inl rfl⟩

end Token

/-! ## Components -/

namespace Pattern

/-- A part of a line that has something to match and cannot leave its segment. -/
structure IsComponent (c : List Char) : Prop where
  /-- It does not consist of spaces alone. -/
  nonblank : ∃ x ∈ c, x ≠ ' '
  /-- It holds no separator. -/
  no_separator : '/' ∉ c
  /-- It holds no `?`, which could read a separator. -/
  no_option : '?' ∉ c
  /-- It opens no class, which could be closed behind it. -/
  no_class : '[' ∉ c

instance (c : List Char) : Decidable (IsComponent c) :=
  decidable_of_iff (c.any (· ≠ ' ') = true ∧ '/' ∉ c ∧ '?' ∉ c ∧ '[' ∉ c)
    ⟨fun h => ⟨by simpa using h.1, h.2.1, h.2.2.1, h.2.2.2⟩,
      fun h => ⟨by simpa using h.1, h.2, h.3, h.4⟩⟩

end Pattern

namespace Token

variable {u : List Char} {t : Token} {ts : List Token}

/-- The first token of a text without separators, `?` and classes stays in its segment. -/
theorem Begins.staysInSegment {v : List Char} (h : Begins u t v) (hs : '/' ∉ u) (ho : '?' ∉ u)
    (hc : '[' ∉ u) : t.StaysInSegment := by
  cases h with
  | manySegments => simp at hs
  | anySegment => simp at hs
  | trailing => simp at hs
  | separator => simp at hs
  | star => trivial
  | option => simp at ho
  | choice => simp at hc
  | @literal x w =>
    intro hmem
    have hsep : '/' ∈ x :: w ++ v := List.mem_append_left v hmem
    exact hs hsep

/-- The tokens of such a text stay in their segment. -/
theorem Spells.staysInSegment (h : Spells u ts) (hs : '/' ∉ u) (ho : '?' ∉ u) (hc : '[' ∉ u) :
    ∀ t ∈ ts, t.StaysInSegment := by
  induction h with
  | nil => simp
  | cons hb _ ih =>
    have hsub := hb.suffix.subset
    refine List.forall_mem_cons.2 ⟨hb.staysInSegment hs ho hc, ?_⟩
    exact ih (fun h => hs (hsub h)) (fun h => ho (hsub h)) fun h => hc (hsub h)

end Token

/-! ## The first separator -/

namespace Rule

open Pattern (IsComponent)

/-- **At its first separator a line is matched part by part.**  The part in front of it matches what
stands in front of the first separator of the path, and the part behind it, as a line of its own,
matches what stands behind that. -/
theorem accepts_append_slash_iff {q r path : List Char} (hq : IsComponent q)
    (hr : ∃ x ∈ r, x ≠ ' ') (hn : ¬ ['!'] <+: r) (ha : ¬ ['*', '/'] <+: r)
    (hm : ¬ ['*', '*', '/'] <+: r) :
    (compile (q ++ '/' :: r)).accepts path = true ↔
      ∃ a b, path = a ++ '/' :: b ∧ '/' ∉ a ∧
        (compile q).accepts a = true ∧ (compile r).accepts b = true := by
  have hsub := (unmarked_suffix q).subset
  have hs : '/' ∉ unmarked q := fun h => hq.no_separator (hsub h)
  have hc : '[' ∉ unmarked q := fun h => hq.no_class (hsub h)
  obtain ⟨ts, hts⟩ := Token.exists_spells (unmarked q)
  obtain ⟨us, hus⟩ := Token.exists_spells r
  have hstay := hts.staysInSegment hs (fun h => hq.no_option (hsub h)) hc
  -- the tokens of the line are those of both parts with the separator between them
  have hline : Token.Spells (unmarked (q ++ '/' :: r))
      (ts ++ .element (.separator false) :: us) := by
    rw [unmarked_append_slash]
    exact (hts.reads_append hs hc r).spells (.cons (.separator hm ha hr) hus)
  have hus' : Token.Spells (unmarked r) us := by rwa [unmarked_of_no_mark hn]
  rw [accepts_iff_of_spells hline ⟨'/', by simp, by decide⟩, Pattern.matches_append_iff]
  constructor
  · rintro ⟨_, htake, b, rfl | ⟨h, -⟩, hb⟩
    · obtain ⟨a, rfl, hsa, hta⟩ := (Token.takes_iff_of_staysInSegment hstay).1 htake
      refine ⟨a, b, rfl, hsa, ?_, (accepts_iff_of_spells hus' hr).2 hb⟩
      exact (accepts_iff_of_spells hts hq.nonblank).2
        ((Token.matches_iff_of_staysInSegment hstay hsa).2 hta)
    · cases h
  · rintro ⟨a, b, rfl, hsa, hqa, hrb⟩
    rw [accepts_iff_of_spells hts hq.nonblank,
      Token.matches_iff_of_staysInSegment hstay hsa] at hqa
    rw [accepts_iff_of_spells hus' hr] at hrb
    exact ⟨_, (Token.takes_iff_of_staysInSegment hstay).2 ⟨a, rfl, hsa, hqa⟩, b, Or.inl rfl, hrb⟩

/-- Of `a*/*b/c`, the part `a*` matches `ax`, and `*b/c` matches `yb/c`. -/
theorem accepts_append_slash_iff_of_stars :
    IsComponent ['a', '*'] ∧ (∃ x ∈ ['*', 'b', '/', 'c'], x ≠ ' ') ∧
      ¬ ['!'] <+: ['*', 'b', '/', 'c'] ∧ ¬ ['*', '/'] <+: ['*', 'b', '/', 'c'] ∧
      ¬ ['*', '*', '/'] <+: ['*', 'b', '/', 'c'] ∧
      (compile (['a', '*'] ++ '/' :: ['*', 'b', '/', 'c'])).accepts
        ['a', 'x', '/', 'y', 'b', '/', 'c'] = true := by
  have hr : ∃ x ∈ ['*', 'b', '/', 'c'], x ≠ ' ' := ⟨'*', by simp, by decide⟩
  refine ⟨by decide, hr, by decide, by decide, by decide, ?_⟩
  exact (accepts_append_slash_iff (by decide) hr (by decide) (by decide) (by decide)).2
    ⟨['a', 'x'], ['y', 'b', '/', 'c'], rfl, by decide, by decide +kernel, by decide +kernel⟩

end Rule

/-! ## Counting separators -/

namespace Token

/-- The tokens end with `/*/` and stars: only nothing may follow the segment, so its second
separator may be missing from the path. -/
def EndLoosely (ts : List Token) : Prop :=
  ∃ us n, ts = us ++ .element .anySegment :: List.replicate (n + 1) (.wildcard .star)

/-- A path that the tokens match holds `n` separators, unless it ends with one; where the tokens
end loosely, it may hold one less. -/
def Separate (ts : List Token) (n : Nat) : Prop :=
  ∀ s, s.getLast? ≠ some '/' → Pattern.Matches ts s →
    s.count '/' = n ∨ EndLoosely ts ∧ s.count '/' + 1 = n

variable {ts us : List Token} {n : Nat}

/-- Only the end of the tokens matters for whether they end loosely. -/
theorem EndLoosely.append (h : EndLoosely us) (ts : List Token) : EndLoosely (ts ++ us) := by
  obtain ⟨vs, n, rfl⟩ := h
  exact ⟨ts ++ vs, n, by simp⟩

/-- What is left of a path that does not end with a separator does not either. -/
theorem getLast?_ne_of_append {a r : List Char} (h : (a ++ r).getLast? ≠ some '/') :
    r.getLast? ≠ some '/' := by
  rw [List.getLast?_append] at h
  intro hr
  exact h (by rw [hr, Option.some_or])

theorem separate_nil : Separate [] 0 := by
  rintro s hlast (rfl | rfl)
  · exact Or.inl rfl
  · exact absurd rfl hlast

/-- Tokens that stay in a segment add no separator. -/
theorem Separate.append (h : Separate us n) (hts : ∀ t ∈ ts, t.StaysInSegment) :
    Separate (ts ++ us) n := by
  intro s hlast hm
  obtain ⟨r, hr, hu⟩ := Pattern.matches_append_iff.1 hm
  obtain ⟨a, rfl, ha, -⟩ := (takes_iff_of_staysInSegment hts).1 hr
  have hcount : (a ++ r).count '/' = r.count '/' := by
    rw [List.count_append, List.count_eq_zero.2 ha, Nat.zero_add]
  rw [hcount]
  exact (h r (getLast?_ne_of_append hlast) hu).imp_right fun ⟨he, hn⟩ => ⟨he.append ts, hn⟩

/-- A separator adds one. -/
theorem Separate.separator (h : Separate ts n) :
    Separate (.element (.separator false) :: ts) (n + 1) := by
  rintro s hlast ⟨r, rfl | ⟨h', -⟩, hm⟩
  · rw [List.count_cons_self]
    refine (h r (getLast?_ne_of_append (a := ['/']) hlast) hm).imp (by omega) ?_
    rintro ⟨he, hn⟩
    exact ⟨he.append [_], by omega⟩
  · cases h'

/-- A segment adds both of its separators, unless the path ends in it. -/
theorem Separate.anySegment (h : Separate ts n)
    (hnil : Pattern.Matches ts [] → n = 0 ∧ ∃ m, ts = List.replicate (m + 1) (.wildcard .star)) :
    Separate (.element .anySegment :: ts) (n + 2) := by
  rintro s hlast ⟨r, ⟨w, hw, rfl | ⟨rfl, rfl⟩⟩, hm⟩
  · have hlast' : r.getLast? ≠ some '/' :=
      getLast?_ne_of_append (a := '/' :: (w ++ ['/'])) (by simpa using hlast)
    have hcount : ('/' :: (w ++ '/' :: r)).count '/' = r.count '/' + 2 := by
      simp [List.count_append, List.count_eq_zero.2 hw]
    rw [hcount]
    refine (h r hlast' hm).imp (by omega) ?_
    rintro ⟨he, hn⟩
    exact ⟨he.append [_], by omega⟩
  · -- the path ends with the segment, and only stars can match nothing
    obtain ⟨rfl, m, rfl⟩ := hnil hm
    refine Or.inr ⟨⟨[], m, rfl⟩, ?_⟩
    rw [List.count_cons_self, List.count_eq_zero.2 hw]

/-! ## Lines of components -/

open Pattern (IsComponent Matches)

/-- Tokens of a component that match nothing are stars. -/
theorem Spells.eq_replicate_star {u : List Char} (h : Spells u ts) (hs : '/' ∉ u) (ho : '?' ∉ u)
    (hc : '[' ∉ u) (hm : Pattern.Takes ts [] []) :
    ts = List.replicate ts.length (.wildcard .star) := by
  induction h with
  | nil => rfl
  | @cons s r t ts hb _ ih =>
    obtain ⟨m, ht, hr⟩ := hm
    obtain rfl : m = [] := List.suffix_nil.1 ht.suffix
    have hsub := hb.suffix.subset
    have hstay := hb.staysInSegment hs ho hc
    rw [List.length_cons, List.replicate_succ,
      ← ih (fun h => hs (hsub h)) (fun h => ho (hsub h)) (fun h => hc (hsub h)) hr]
    cases hb with
    | star => rfl
    | literal => cases ht
    | _ => exact hstay.elim

/-- The text spells tokens that match paths with `n` separators, unless they end loosely; they match
nothing only where they are stars. -/
def Separates (s : List Char) (n : Nat) : Prop :=
  ∃ ts, Spells s ts ∧ Separate ts n ∧
    (Matches ts [] → n = 0 ∧ ∃ m, ts = List.replicate (m + 1) (.wildcard .star))

variable {c s : List Char}

/-- A component stays in a segment. -/
theorem separates_component (hc : IsComponent c) : Separates c 0 := by
  obtain ⟨ts, hts⟩ := exists_spells c
  have hstay := hts.staysInSegment hc.no_separator hc.no_option hc.no_class
  refine ⟨ts, hts, by simpa using separate_nil.append hstay, fun hm => ⟨rfl, ?_⟩⟩
  have hnil := (matches_iff_of_staysInSegment hstay (by simp)).1 hm
  have hstars := hts.eq_replicate_star hc.no_separator hc.no_option hc.no_class hnil
  cases hts with
  | nil => simpa using hc.nonblank
  | @cons _ _ t ts => exact ⟨ts.length, hstars⟩

/-- A component in front of a separator adds none. -/
theorem Separates.append_component (h : Separates ('/' :: s) (n + 1)) (hc : IsComponent c) :
    Separates (c ++ '/' :: s) (n + 1) := by
  obtain ⟨us, hus, hsep, hnil⟩ := h
  obtain ⟨ts, hts⟩ := exists_spells c
  have hstay := hts.staysInSegment hc.no_separator hc.no_option hc.no_class
  have hreads := hts.reads_append hc.no_separator hc.no_class s
  refine ⟨ts ++ us, hreads.spells hus, hsep.append hstay, fun hm => ?_⟩
  obtain ⟨r, hr, hu⟩ := Pattern.matches_append_iff.1 hm
  obtain ⟨a, ha, -⟩ := (takes_iff_of_staysInSegment hstay).1 hr
  obtain ⟨rfl, rfl⟩ := List.append_eq_nil_iff.1 ha.symm
  exact absurd (hnil hu).1 (by omega)

/-- A separator of its own adds one. -/
theorem Separates.separator (h : Separates s n) (hm : ¬ ['*', '*', '/'] <+: s)
    (ha : ¬ ['*', '/'] <+: s) (hs : ∃ x ∈ s, x ≠ ' ') : Separates ('/' :: s) (n + 1) := by
  obtain ⟨ts, hts, hsep, -⟩ := h
  refine ⟨_, .cons (.separator hm ha hs) hts, hsep.separator, ?_⟩
  rintro ⟨r, h | ⟨h, -⟩, -⟩ <;> cases h

/-- A segment adds two. -/
theorem Separates.anySegment (h : Separates s n) :
    Separates ('/' :: '*' :: '/' :: s) (n + 2) := by
  obtain ⟨ts, hts, hsep, hnil⟩ := h
  refine ⟨_, .cons (.anySegment s) hts, hsep.anySegment hnil, ?_⟩
  rintro ⟨r, ⟨w, -, h | ⟨h, -⟩⟩, -⟩ <;> cases h

/-- Before its first separator a text is one text only. -/
theorem eq_of_append_slash {w r : List Char} (hc : '/' ∉ c) (hw : '/' ∉ w)
    (h : w ++ '/' :: r = c ++ '/' :: s) : w = c := by
  rcases List.append_eq_append_iff.1 h with ⟨a, rfl, ha⟩ | ⟨a, rfl, ha⟩
  · cases a with
    | nil => simp
    | cons x a =>
      obtain rfl : '/' = x := (List.cons.inj ha).1
      simp at hc
  · cases a with
    | nil => simp
    | cons x a =>
      obtain rfl : '/' = x := (List.cons.inj ha).1
      simp at hw

/-- A text without separators does not go on with one. -/
theorem not_prefix_of_not_mem {w : List Char} (hc : '/' ∉ c) : ¬ w ++ ['/'] <+: c := fun h =>
  hc (h.subset (by simp))

/-- Where a component stands in front of a separator, `w/` stands only if it is `w`. -/
theorem not_prefix_of_ne {w : List Char} (hc : '/' ∉ c) (hw : '/' ∉ w) (hne : c ≠ w) :
    ¬ w ++ ['/'] <+: c ++ '/' :: s := by
  rintro ⟨r, hr⟩
  rw [List.append_assoc] at hr
  exact hne (eq_of_append_slash hc hw hr).symm

/-- **A line of components separates as many segments**, whether it is read from its start or
behind a separator that was not read yet. -/
theorem separates_components {c : List Char} {cs : List (List Char)}
    (h : ∀ d ∈ c :: cs, IsComponent d ∧ d ≠ ['*', '*']) :
    Separates (List.intercalate ['/'] (c :: cs)) cs.length ∧
      Separates ('/' :: List.intercalate ['/'] (c :: cs)) (cs.length + 1) := by
  induction cs generalizing c with
  | nil =>
    obtain ⟨hc, -⟩ := h c (by simp)
    have hsep := separates_component hc
    rw [List.intercalate_singleton]
    exact ⟨hsep, hsep.separator (not_prefix_of_not_mem (w := ['*', '*']) hc.no_separator)
      (not_prefix_of_not_mem (w := ['*']) hc.no_separator) hc.nonblank⟩
  | cons d cs ih =>
    obtain ⟨⟨hc, hne⟩, hcs⟩ := List.forall_mem_cons.1 h
    obtain ⟨hrest, hslash⟩ := ih hcs
    rw [List.intercalate_cons_cons, List.append_assoc, List.singleton_append]
    have hline := hslash.append_component hc
    refine ⟨hline, ?_⟩
    -- a lone star with a separator on both sides is read with them
    by_cases hstar : c = ['*']
    · subst hstar
      exact hrest.anySegment
    · refine hline.separator (not_prefix_of_ne (w := ['*', '*']) hc.no_separator (by decide) hne)
        (not_prefix_of_ne (w := ['*']) hc.no_separator (by decide) hstar) ?_
      obtain ⟨x, hx, hxs⟩ := hc.nonblank
      exact ⟨x, List.mem_append_left _ hx, hxs⟩

/-! ## The text of a pattern as a path -/

/-- A token in front of others that is no class takes its own text. -/
theorem Begins.takes_self {r : List Char} {t : Token} (h : Begins s t r) (hc : '[' ∉ s)
    (hr : r ≠ []) : ∃ x, s = x ++ r ∧ ∀ y, t.Takes (x ++ y) y := by
  cases h with
  | manySegments => exact ⟨['/', '*', '*', '/'], rfl, fun y => ⟨['*', '*', '/'], rfl⟩⟩
  | anySegment => exact ⟨['/', '*', '/'], rfl, fun y => ⟨['*'], by decide, Or.inl rfl⟩⟩
  | trailing => exact absurd rfl hr
  | separator => exact ⟨['/'], rfl, fun y => Or.inl rfl⟩
  | star => exact ⟨['*'], rfl, fun y => ⟨['*'], by decide, rfl⟩⟩
  | option => exact ⟨['?'], rfl, fun y => ⟨'?', rfl⟩⟩
  | choice => simp at hc
  | @literal x w => exact ⟨x :: w, rfl, fun y => rfl⟩

/-- Tokens in front of others take their own text, if it opens no class. -/
theorem Reads.takes_self {r : List Char} (h : Reads s ts r) (hc : '[' ∉ s) (hr : r ≠ []) :
    ∃ x, s = x ++ r ∧ ∀ y, Pattern.Takes ts (x ++ y) y := by
  induction h with
  | nil s => exact ⟨[], rfl, fun y => rfl⟩
  | @cons s m u t ts hb hs ih =>
    obtain ⟨z, rfl, hz⟩ := ih (fun h => hc (hb.suffix.subset h)) hr
    obtain ⟨x, rfl, hx⟩ := hb.takes_self hc (by simp [hr])
    exact ⟨x ++ z, by simp, fun y => ⟨z ++ y, by simpa using hx (z ++ y), hz y⟩⟩

theorem eq_replicate_of_spells_stars (h : Spells s (List.replicate n (.wildcard .star))) :
    s = List.replicate n '*' := by
  induction n generalizing s with
  | zero =>
    obtain _ | _ := h
    rfl
  | succ n ih =>
    obtain _ | ⟨⟨r⟩, hs⟩ := h
    rw [List.replicate_succ, ih hs]

theorem matches_stars_nil : Matches (List.replicate n (.wildcard .star)) [] := by
  induction n with
  | zero => exact Or.inl rfl
  | succ n ih => exact ⟨[], ⟨[], by simp, rfl⟩, ih⟩

/-- **Where the tokens end loosely, a separator can be left out**: the text of the pattern up to its
last separator is a path that they match. -/
theorem exists_matches_of_endLoosely (h : Spells s ts) (hc : '[' ∉ s) (hl : EndLoosely ts) :
    ∃ path, path.getLast? ≠ some '/' ∧ Matches ts path ∧ path.count '/' + 1 = s.count '/' := by
  obtain ⟨us, n, rfl⟩ := hl
  obtain ⟨r, hr, hspell⟩ := exists_reads_of_spells h
  obtain _ | ⟨hb, hstars⟩ := hspell
  rw [eq_replicate_of_spells_stars hstars] at hb
  cases hb with
  | anySegment =>
    obtain ⟨x, rfl, hx⟩ := hr.takes_self hc (by simp)
    refine ⟨x ++ ['/', '*'], by simp, ?_, by simp [List.count_append, List.count_replicate]⟩
    refine Pattern.matches_append_iff.2 ⟨['/', '*'], hx _, [], ?_, matches_stars_nil⟩
    exact ⟨['*'], by decide, Or.inr ⟨rfl, rfl⟩⟩

end Token

namespace Rule

open Token (EndLoosely)
open Pattern (IsComponent)

/-- A line of components holds the separators between them. -/
theorem count_intercalate {c : List Char} {cs : List (List Char)}
    (h : ∀ d ∈ c :: cs, '/' ∉ d) : (List.intercalate ['/'] (c :: cs)).count '/' = cs.length := by
  induction cs generalizing c with
  | nil => rw [List.intercalate_singleton, List.count_eq_zero.2 (h c (by simp)), List.length_nil]
  | cons d cs ih =>
    obtain ⟨hc, hcs⟩ := List.forall_mem_cons.1 h
    rw [List.intercalate_cons_cons, List.append_assoc, List.singleton_append, List.count_append,
      List.count_eq_zero.2 hc, List.count_cons_self, ih hcs, List.length_cons]
    omega

/-- A line of components opens no class. -/
theorem no_class_intercalate {cs : List (List Char)} (h : ∀ d ∈ cs, '[' ∉ d) :
    '[' ∉ List.intercalate ['/'] cs := by
  induction cs with
  | nil => simp
  | cons c cs ih =>
    obtain ⟨hc, hcs⟩ := List.forall_mem_cons.1 h
    cases cs with
    | nil => rwa [List.intercalate_singleton]
    | cons d cs =>
      rw [List.intercalate_cons_cons, List.append_assoc, List.singleton_append]
      simpa using ⟨hc, ih hcs⟩

/-- Joined segments begin with the first one. -/
theorem exists_intercalate_eq (c : List Char) (cs : List (List Char)) :
    ∃ s, List.intercalate ['/'] (c :: cs) = c ++ s := by
  cases cs with
  | nil => exact ⟨[], by simp⟩
  | cons d cs => exact ⟨_, by rw [List.intercalate_cons_cons, List.append_assoc]⟩

/-- **A line of `k` components matches paths of `k` segments.**  None of the components is `**`, and
the path does not end with a separator.  Only where the line ends with `/*/` and stars may the path
leave out the second separator of this segment, and then some path does. -/
theorem count_separators_of_accepts {c : List Char} {cs : List (List Char)}
    (h : ∀ d ∈ c :: cs, IsComponent d ∧ d ≠ ['*', '*']) (hn : ¬ ['!'] <+: c) :
    let line := List.intercalate ['/'] (c :: cs)
    (∀ path, path.getLast? ≠ some '/' → (compile line).accepts path = true →
      path.count '/' = cs.length ∨
        EndLoosely (Token.readAll (.start line)).1 ∧ path.count '/' + 1 = cs.length) ∧
    (EndLoosely (Token.readAll (.start line)).1 →
      ∃ path, path.getLast? ≠ some '/' ∧ (compile line).accepts path = true ∧
        path.count '/' + 1 = cs.length) := by
  intro line
  obtain ⟨hc, -⟩ := (List.forall_mem_cons.1 h).1
  obtain ⟨s, hs⟩ := exists_intercalate_eq c cs
  have hblank : ∃ x ∈ line, x ≠ ' ' := by
    obtain ⟨x, hx, hxs⟩ := hc.nonblank
    exact ⟨x, by simp [line, hs, hx], hxs⟩
  have hmark : unmarked line = line := by
    refine unmarked_of_no_mark fun hp => hn ?_
    obtain ⟨x, u, rfl⟩ := List.exists_cons_of_ne_nil (List.ne_nil_of_mem hc.nonblank.choose_spec.1)
    simpa [line, hs] using hp
  obtain ⟨⟨ts, hts, hsep, -⟩, -⟩ := Token.separates_components h
  have hline : Token.Spells (unmarked line) ts := by rwa [hmark]
  rw [spells_unmarked_iff.1 hline]
  refine ⟨fun path hlast hp => hsep path hlast ((accepts_iff_of_spells hline hblank).1 hp), ?_⟩
  intro hl
  have hclass : '[' ∉ line := no_class_intercalate fun d hd => (h d hd).1.no_class
  obtain ⟨path, hlast, hm, hcount⟩ := Token.exists_matches_of_endLoosely hts hclass hl
  refine ⟨path, hlast, (accepts_iff_of_spells hline hblank).2 hm, ?_⟩
  rw [hcount, count_intercalate fun d hd => (h d hd).1.no_separator]

/-- The line `a/*/*` has three components, and matches both `a/x/y` and `a/x`. -/
theorem count_separators_of_accepts_of_final_star :
    (∀ d ∈ [['a'], ['*'], ['*']], IsComponent d ∧ d ≠ ['*', '*']) ∧ ¬ ['!'] <+: ['a'] ∧
      (['a', '/', 'x', '/', 'y'].count '/' = 2 ∨
        EndLoosely (Token.readAll (.start ['a', '/', '*', '/', '*'])).1 ∧
          ['a', '/', 'x', '/', 'y'].count '/' + 1 = 2) ∧
      ∃ path, path.getLast? ≠ some '/' ∧
        (compile ['a', '/', '*', '/', '*']).accepts path = true ∧ path.count '/' + 1 = 2 := by
  have h : ∀ d ∈ [['a'], ['*'], ['*']], IsComponent d ∧ d ≠ ['*', '*'] := by decide
  have hn : ¬ ['!'] <+: ['a'] := by decide
  have hl : EndLoosely (Token.readAll (.start ['a', '/', '*', '/', '*'])).1 :=
    ⟨[.element (.literal ['a'])], 0, by decide +kernel⟩
  obtain ⟨hcount, hloose⟩ := count_separators_of_accepts h hn
  exact ⟨h, hn, hcount ['a', '/', 'x', '/', 'y'] (by decide) (by decide +kernel), hloose hl⟩

/-- A line of components may match a path of fewer segments: `a/*/*` matches `a/x`. -/
theorem accepts_path_of_fewer_segments :
    ¬ ∀ (c : List Char) (cs : List (List Char)),
      (∀ d ∈ c :: cs, IsComponent d ∧ d ≠ ['*', '*']) → ¬ ['!'] <+: c →
        ∀ path : List Char, path.getLast? ≠ some '/' →
          (compile (List.intercalate ['/'] (c :: cs))).accepts path = true →
            path.count '/' = cs.length := by
  intro h
  have hcount := h ['a'] [['*'], ['*']] (by decide) (by decide) ['a', '/', 'x'] (by decide)
    (by decide +kernel)
  exact absurd hcount (by decide)

end Rule

end IgnoreRules
