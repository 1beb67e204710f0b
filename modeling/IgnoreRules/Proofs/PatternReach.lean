/-
# Where the matcher of a pattern stops

The matcher of a list of tokens is put together from runs, branches and a search.  This module
takes it apart again: `Pattern.reach` reads the path token by token, a wildcard by trying what
follows it from each of its split points, and the matcher is nothing but `reach` with a cursor to
fall back to.

* `matcher_eq_reach` : the matcher reaches what `reach` reaches, or stands where it began;
* `le_and_rest_of_reach` : what is reached lies ahead, at the end of the path;
* `matcher_rolls_back_or_ends` : no failure shows a cursor that was moved.
-/
import IgnoreRules.Proofs.DepthFirst
import IgnoreRules.Proofs.TokenTakes
import IgnoreRules.Pattern

namespace IgnoreRules

namespace Matcher

/-- One separator may stand at the end of the input. -/
theorem endOfInput_of_slash {c : Cursor} {r : List Char} (h : c.rest = '/' :: r) :
    endOfInput c = ⟨r.isEmpty, c.advance⟩ := by
  rw [endOfInput, h]
  rfl

theorem endOfInput_of_ne_slash {c : Cursor} (h : ∀ r, c.rest ≠ '/' :: r) :
    endOfInput c = ⟨c.rest.isEmpty, c⟩ := by
  rw [endOfInput]
  split
  · next r hr => exact absurd hr (h r)
  · rfl

/-- The end of the path is accepted behind one separator or none. -/
theorem reached_endOfInput_iff {c d : Cursor} :
    (endOfInput c).reached? = some d ↔
      (c.rest = [] ∨ c.rest = ['/']) ∧ c ≤ d ∧ d.rest = [] := by
  by_cases hs : ∃ r, c.rest = '/' :: r
  · obtain ⟨r, hs⟩ := hs
    rw [endOfInput_of_slash hs, hs, Attempt.reached?]
    cases r with
    | nil =>
      rw [List.isEmpty_nil, if_pos rfl, Option.some.injEq,
        Cursor.eq_iff_of_rest_nil (Cursor.le_advance c) (by simp [hs])]
      simp
    | cons x r => simp
  · have hne : ∀ r, c.rest ≠ '/' :: r := fun r hr => hs ⟨r, hr⟩
    rw [endOfInput_of_ne_slash hne, Attempt.reached?]
    by_cases hr : c.rest = []
    · rw [hr, List.isEmpty_nil, if_pos rfl, Option.some.injEq,
        Cursor.eq_iff_of_rest_nil (Cursor.le_refl c) hr]
      simp
    · simp [hr, hne []]

/-- A chain that starts with nothing to read reads what is behind, and fails where it began. -/
theorem chain_positive (ms : List Matcher) (c : Cursor) :
    chain positive ms c = Attempt.ofOption (followAll ms c) c := rfl

end Matcher

namespace Pattern

/-! ## Token by token -/

/-- Reads the path along the tokens up to its end.  Behind a wildcard, the first split point from
which the later tokens can be read gives the answer. -/
def reach : List Token → Cursor → Option Cursor
  | [], c => (Matcher.endOfInput c).reached?
  | .element e :: ts, c => (e.matcher c).reached?.bind (reach ts)
  | .wildcard w :: ts, c => (w.splits c).findSome? (reach ts)

/-- What is read behind a run: the end of the path, or the branches that are left. -/
def behind : List (Wildcard × List Element) → Cursor → Option Cursor
  | [], c => (Matcher.endOfInput c).reached?
  | b :: bs, c => Search.depthFirst (branches (b :: bs)) c

/-- Reads a run and what is behind it. -/
def complete (es : List Element) (bs : List (Wildcard × List Element)) (c : Cursor) :
    Option Cursor :=
  (Matcher.followAll (es.map Element.matcher) c).bind (behind bs)

/-- A step inside a pattern reaches what its elements reach. -/
theorem reached_inner (es : List Element) (c : Cursor) :
    (inner es c).reached? = Matcher.followAll (es.map Element.matcher) c := by
  rw [inner, Matcher.chain_positive, Attempt.reached?_ofOption]

/-- The last step also has to reach the end. -/
theorem reached_final (es : List Element) (c : Cursor) :
    (final es c).reached? = complete es [] c := by
  rw [final, Matcher.chain_positive, Attempt.reached?_ofOption, Matcher.followAll_append,
    complete]
  congr 1
  funext d
  rw [Matcher.followAll_cons, behind]
  exact Option.bind_fun_some _

/-- The steps of a branch are its run, and the branches behind it are those that are left. -/
theorem behind_cons (w : Wildcard) (es : List Element) (bs : List (Wildcard × List Element))
    (c : Cursor) : behind ((w, es) :: bs) c = (w.splits c).findSome? (complete es bs) := by
  cases bs with
  | nil =>
    show (w.splits c).findSome? (fun s => (final es s).reached?.bind some) = _
    congr 1
    funext s
    rw [reached_final, Option.bind_fun_some]
  | cons b bs =>
    show (w.splits c).findSome? (fun s => (inner es s).reached?.bind (behind (b :: bs))) = _
    congr 1
    funext s
    rw [reached_inner, complete]

/-- The runs and branches of a pattern read it token by token. -/
theorem reach_eq_complete (ts : List Token) (c : Cursor) :
    reach ts c = complete (runs ts).1 (runs ts).2 c := by
  induction ts generalizing c with
  | nil => rfl
  | cons t ts ih =>
    rw [← funext_iff] at ih
    -- an element is read in front of the first run, a wildcard ends an empty one
    cases t with
    | element e =>
      rw [reach, runs_element, complete, List.map_cons, Matcher.followAll_cons,
        Option.bind_assoc, ih]
      rfl
    | wildcard w =>
      rw [reach, runs_wildcard, ih]
      exact (behind_cons w _ _ c).symm

/-- **The matcher of a pattern reads it token by token**, and a failure stands where it began. -/
theorem matcher_eq_reach (ts : List Token) (c : Cursor) :
    matcher ts c = Attempt.ofOption (reach ts c) c := by
  rw [reach_eq_complete, matcher]
  cases (runs ts).2 with
  | nil =>
    show final _ c = _
    rw [← reached_final, final, Matcher.chain_positive, Attempt.reached?_ofOption]
  | cons b bs =>
    show Matcher.search _ _ c = _
    rw [Search.search_eq_recursive, Search.recursive, reached_inner]
    rfl

/-! ## The cursor that is reached -/

variable {ts : List Token} {c d : Cursor}

/-- What is reached lies ahead, at the end of the path. -/
theorem le_and_rest_of_reach (h : reach ts c = some d) : c ≤ d ∧ d.rest = [] := by
  induction ts generalizing c with
  | nil =>
    obtain ⟨-, hle, hr⟩ := Matcher.reached_endOfInput_iff.1 h
    exact ⟨hle, hr⟩
  | cons t ts ih =>
    cases t with
    | element e =>
      obtain ⟨m, hm, h⟩ := Option.bind_eq_some_iff.1 h
      obtain ⟨hle, hr⟩ := ih h
      exact ⟨Cursor.le_trans (Element.reached_matcher_iff.1 hm).1 hle, hr⟩
    | wildcard w =>
      obtain ⟨m, hm, h⟩ := List.exists_of_findSome?_eq_some h
      obtain ⟨hle, hr⟩ := ih h
      exact ⟨Cursor.le_trans (Wildcard.mem_splits_iff.1 hm).1 hle, hr⟩

/-- A failure stands where the matcher began, and a success at the end of the path. -/
theorem matcher_eq_false_or_true (ts : List Token) (c : Cursor) :
    matcher ts c = ⟨false, c⟩ ∨
      ∃ d, matcher ts c = ⟨true, d⟩ ∧ c ≤ d ∧ d.rest = [] := by
  rw [matcher_eq_reach]
  cases h : reach ts c with
  | none => exact Or.inl rfl
  | some d => exact Or.inr ⟨d, rfl, le_and_rest_of_reach h⟩

/-- **A pattern rolls back or reads the path to its end.**  Wherever a pattern is read from, and
wherever its matcher starts, a failure hands back the very cursor that was given, and a success
stands in the same text, not before that cursor, with nothing left to read.  The matchers it is
made of do not: in front of a separator with more behind it, the end of the path is not accepted
and the cursor is moved. -/
theorem matcher_rolls_back_or_ends :
    (∀ p c, (compile p).1 c = ⟨false, c⟩ ∨
      ∃ d, (compile p).1 c = ⟨true, d⟩ ∧ d.text = c.text ∧ c.position ≤ d.position ∧
        d.atEnd = true) ∧
    ∀ c x r, c.rest = '/' :: x :: r →
      Matcher.endOfInput c = ⟨false, c.advance⟩ ∧ c.advance ≠ c := by
  constructor
  · intro p c
    rcases matcher_eq_false_or_true (Token.readAll p).1 c with h | ⟨d, h, hle, hr⟩
    · exact Or.inl h
    · exact Or.inr ⟨d, h, Cursor.text_eq_of_le hle, Cursor.position_le_of_le hle,
        (Cursor.atEnd_iff d).2 hr⟩
  · intro c x r h
    refine ⟨Matcher.endOfInput_of_slash h, fun heq => ?_⟩
    have hlen := congrArg (fun e : Cursor => e.rest.length) heq
    simp [h] at hlen

end Pattern

end IgnoreRules
