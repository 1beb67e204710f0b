/-
# Nested chains

Matchers can be chained in one go, or two at a time with brackets put in any way.  Each way reads
the same and fails at the same cursor: where the first matcher of all stopped, if that one fails,
and where the chain began, if a later one does.  This holds of any matchers; what cursor one of them
shows when it fails does not matter.

* `chain_chain_left`, `chain_chain_right` : a chain in front or behind can be opened;
* `Bracketing.matcher_eq_chain` : so brackets do not matter;
* `chain_positive_right`, `chain_positive_left` : a matcher that reads nothing does not matter
  behind another one, and in front of it only for where a failure stands.
-/
import IgnoreRules.Matcher

namespace IgnoreRules

namespace Attempt

variable {a : Attempt}

/-- An attempt that matched reached its cursor. -/
theorem reached?_of_matched (h : a.matched = true) : a.reached? = some a.cursor := if_pos h

theorem reached?_of_failed (h : a.matched = false) : a.reached? = none :=
  if_neg (by rw [h]; decide)

end Attempt

namespace Matcher

variable {m n : Matcher} {ms ns : List Matcher} {c : Cursor}

/-! ## The first matcher and the others -/

/-- Where the first matcher fails, the chain fails in the same way. -/
theorem chain_of_failed (h : (m c).matched = false) : chain m ms c = m c :=
  if_neg (by rw [h]; decide)

/-- Where the first matcher succeeds, the others go on, and a failure stands where it began. -/
theorem chain_of_matched (h : (m c).matched = true) :
    chain m ms c = Attempt.ofOption (followAll ms (m c).cursor) c := if_pos h

/-- A chain reaches what its matchers reach one after the other. -/
theorem reached?_chain (m : Matcher) (ms : List Matcher) (c : Cursor) :
    (chain m ms c).reached? = followAll (m :: ms) c := by
  rw [followAll_cons]
  cases hm : (m c).matched with
  | false => rw [chain_of_failed hm, Attempt.reached?_of_failed hm, Option.bind_none]
  | true =>
    rw [chain_of_matched hm, Attempt.reached?_ofOption, Attempt.reached?_of_matched hm,
      Option.bind_some]

/-- A chain goes by what the matchers behind the first read together. -/
theorem chain_congr (h : followAll ms = followAll ns) : chain m ms = chain m ns := by
  unfold chain
  rw [h]

/-- One matcher is chained to itself. -/
theorem chain_nil (m : Matcher) : chain m [] = m := by
  funext c
  cases hm : (m c).matched with
  | false => exact chain_of_failed hm
  | true =>
    rw [chain_of_matched hm, followAll_nil, Attempt.ofOption_some, ← hm]

/-! ## Chains in chains -/

/-- **A chain in front can be opened.**  If it fails, it already stands where the whole chain has to
stand. -/
theorem chain_chain_left (m : Matcher) (ms ns : List Matcher) :
    chain (chain m ms) ns = chain m (ms ++ ns) := by
  funext c
  cases hm : (m c).matched with
  | false =>
    have hfirst : chain m ms c = m c := chain_of_failed hm
    rw [chain_of_failed (hfirst ▸ hm), hfirst, chain_of_failed hm]
  | true =>
    have hfirst : chain m ms c = Attempt.ofOption (followAll ms (m c).cursor) c :=
      chain_of_matched hm
    rw [chain_of_matched hm, followAll_append]
    cases hms : followAll ms (m c).cursor with
    | none =>
      rw [hms, Attempt.ofOption_none] at hfirst
      rw [chain_of_failed (by rw [hfirst]), hfirst, Option.bind_none, Attempt.ofOption_none]
    | some d =>
      rw [hms, Attempt.ofOption_some] at hfirst
      rw [chain_of_matched (by rw [hfirst]), hfirst, Option.bind_some]

/-- **A chain behind can be opened.**  Where it stands if it fails is not seen. -/
theorem chain_chain_right (m n : Matcher) (ns : List Matcher) :
    chain m [chain n ns] = chain m (n :: ns) := by
  refine chain_congr (funext fun c => ?_)
  rw [followAll_cons, reached?_chain]
  exact Option.bind_fun_some _

/-! ## Brackets -/

/-- Matchers in sequence, with brackets around two parts at a time. -/
inductive Bracketing where
  | single (m : Matcher)
  | pair (first second : Bracketing)

namespace Bracketing

/-- The matchers without the brackets. -/
def matchers : Bracketing → List Matcher
  | single m => [m]
  | pair first second => first.matchers ++ second.matchers

/-- Chains two parts at a time. -/
def matcher : Bracketing → Matcher
  | single m => m
  | pair first second => chain first.matcher [second.matcher]

/-- There is a matcher in any brackets. -/
theorem exists_matchers_eq_cons (b : Bracketing) : ∃ m ms, b.matchers = m :: ms := by
  induction b with
  | single m => exact ⟨m, [], rfl⟩
  | pair first second ih _ =>
    obtain ⟨m, ms, h⟩ := ih
    exact ⟨m, ms ++ second.matchers, by rw [matchers, h, List.cons_append]⟩

/-- **Brackets do not matter**: two at a time, matchers are chained as in one go. -/
theorem matcher_eq_chain {b : Bracketing} (h : b.matchers = m :: ms) :
    b.matcher = chain m ms := by
  induction b generalizing m ms with
  | single n =>
    obtain ⟨rfl, rfl⟩ := List.cons.inj h
    exact (chain_nil n).symm
  | pair first second ihfirst ihsecond =>
    obtain ⟨m', ms', hfirst⟩ := first.exists_matchers_eq_cons
    obtain ⟨n, ns, hsecond⟩ := second.exists_matchers_eq_cons
    rw [matchers, hfirst, hsecond, List.cons_append] at h
    obtain ⟨rfl, rfl⟩ := List.cons.inj h
    rw [matcher, ihfirst hfirst, ihsecond hsecond, chain_chain_right, chain_chain_left]

end Bracketing

/-! ## Matchers that read nothing -/

/-- Behind another matcher, one that reads nothing changes nothing. -/
theorem chain_positive_right (m : Matcher) : chain m [positive] = m := by
  have hfollow : followAll [positive] = followAll [] := rfl
  rw [chain_congr hfollow, chain_nil]

/-- In front of another matcher, one that reads nothing takes a failure back to where it began. -/
theorem chain_positive_left (m : Matcher) (c : Cursor) :
    chain positive [m] c = if (m c).matched then m c else ⟨false, c⟩ := by
  have hchain : chain positive [m] c = Attempt.ofOption (m c).reached? c := by
    rw [chain_of_matched rfl, followAll_cons]
    exact congrArg (Attempt.ofOption · c) (Option.bind_fun_some _)
  rw [hchain]
  cases hm : (m c).matched with
  | false => rw [Attempt.reached?_of_failed hm, if_neg (by decide), Attempt.ofOption_none]
  | true => rw [Attempt.reached?_of_matched hm, if_pos rfl, Attempt.ofOption_some, ← hm]

/-- **A chain is the same in whatever brackets.**  Chained two at a time, in any way, matchers
succeed and fail at the same cursors as in one go.  A matcher that reads nothing can be left out
behind another one; in front of it, it takes the place where a failure stands to where the chain
began. -/
theorem chain_in_any_brackets :
    (∀ (b : Bracketing) (m : Matcher) (ms : List Matcher), b.matchers = m :: ms →
      ∀ c, b.matcher c = chain m ms c) ∧
    (∀ m c, chain m [positive] c = m c) ∧
    ∀ m c, chain positive [m] c = if (m c).matched then m c else ⟨false, c⟩ := by
  refine ⟨fun b m ms h c => ?_, fun m c => ?_, chain_positive_left⟩
  · rw [Bracketing.matcher_eq_chain h]
  · rw [chain_positive_right]

/-- The end of the path fails behind the separator of `/ab`.  A chain that starts with it stands
there as well, with its brackets to the right, and one that reads the separator before it stands in
front of that. -/
theorem chain_in_any_brackets_of_endOfInput :
    let c := Cursor.start ['/', 'a', 'b']
    let a : Bracketing := .single endOfInput
    let b : Bracketing := .single (sequence ['/'])
    (Bracketing.pair a (.pair b (.pair a b))).matcher c = ⟨false, .seek ['/', 'a', 'b'] 1⟩ ∧
      (Bracketing.pair (.pair b a) (.pair a b)).matcher c = ⟨false, c⟩ := by
  intro c a b
  have hfirst := chain_in_any_brackets.1 (.pair a (.pair b (.pair a b))) _ _ rfl c
  have hlater := chain_in_any_brackets.1 (.pair (.pair b a) (.pair a b)) _ _ rfl c
  exact ⟨hfirst.trans (by decide), hlater.trans (by decide)⟩

end Matcher

end IgnoreRules
