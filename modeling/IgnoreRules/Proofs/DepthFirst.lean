/-
# The search as a recursion

`Search.run` works on levels of untried split points.  This module says what it computes without
them.  `Search.depthFirst` completes the branches by plain recursion, and `Search.follow` completes
them along a given tuple of choices, one split point of each branch.

* `run_eq_resume` : from any levels, the search finds what the untried split points lead to;
* `depthFirst_eq_some_iff` : the recursion finds the lexicographically first tuple;
* `search_eq_recursive` : the search is the recursion, started behind the head.
-/
import IgnoreRules.Search

namespace IgnoreRules.Search

/-! ## The recursive search -/

/-- Completes the branches one inside the other.  The split points of a branch are tried in order,
and the first from which the later branches can be completed gives the answer. -/
def depthFirst : List Branch → Cursor → Option Cursor
  | [], c => some c
  | b :: bs, c => (b.splits c).findSome? fun s => (b.steps s).reached?.bind (depthFirst bs)

/-- What one split point of the first of the branches leads to. -/
def attempt : List Branch → Cursor → Option Cursor
  | [], _ => none
  | b :: bs, s => (b.steps s).reached?.bind (depthFirst bs)

theorem depthFirst_cons (b : Branch) (bs : List Branch) (c : Cursor) :
    depthFirst (b :: bs) c = (b.splits c).findSome? (attempt (b :: bs)) := rfl

/-- Reads `head` and then completes the branches by recursion; a failure stands where it began. -/
def recursive (head : Matcher) (branches : List Branch) : Matcher := fun c =>
  Attempt.ofOption ((head c).reached?.bind (depthFirst branches)) c

/-! ## What the levels still hold -/

/-- What the untried split points lead to: those of the innermost level first, then those of the
levels around it. -/
def resume (branches : List Branch) : List (List Cursor) → Option Cursor
  | [] => none
  | splits :: levels =>
      (splits.findSome? (attempt (branches.drop levels.length))).or (resume branches levels)

/-- What a search in this state will come to. -/
def State.outcome (branches : List Branch) : State → Option Cursor
  | .pending levels => resume branches levels
  | .found c => some c
  | .exhausted => none
  | .stuck => none

/-- The first untried split point is tried before all the others. -/
theorem resume_cons_cons (branches : List Branch) (s : Cursor) (splits : List Cursor)
    (levels : List (List Cursor)) :
    resume branches ((s :: splits) :: levels)
      = (attempt (branches.drop levels.length) s).or (resume branches (splits :: levels)) := by
  rw [resume, resume, List.findSome?_cons]
  cases attempt (branches.drop levels.length) s <;> rfl

/-- Entering a branch opens a level with all its split points. -/
theorem resume_enter {branches : List Branch} {b : Branch} {bs : List Branch}
    {levels : List (List Cursor)} (hd : branches.drop levels.length = b :: bs) (c : Cursor) :
    resume branches (b.splits c :: levels)
      = (depthFirst (b :: bs) c).or (resume branches levels) := by
  rw [resume, hd, depthFirst_cons]

/-! ## One move -/

/-- Where the search stands when a branch was completed up to `r`: at the split points of the next
branch, if there is one. -/
def enter (r : Cursor) (levels : List (List Cursor)) : List Branch → State
  | [] => .found r
  | b :: _ => .pending (b.splits r :: levels)

/-- A move on a split point of the branch `b`, in front of the branches `bs` not entered yet. -/
theorem step_cons_cons {branches : List Branch} {b : Branch} {bs : List Branch}
    {levels : List (List Cursor)} (hd : branches.drop levels.length = b :: bs) (s : Cursor)
    (splits : List Cursor) :
    step branches ((s :: splits) :: levels)
      = (b.steps s).reached?.elim (.pending (splits :: levels))
          fun r => enter r (splits :: levels) bs := by
  have hb : branches[levels.length]? = some b := by
    rw [← List.head?_drop, hd, List.head?_cons]
  have hn : branches[levels.length + 1]? = bs.head? := by
    rw [← List.head?_drop, ← List.drop_drop, hd, List.drop_one, List.tail_cons]
  simp only [step, hb, hn]
  cases (b.steps s).reached? with
  | none => rfl
  | some r => cases bs <;> rfl

/-- Where the levels are not too many, the innermost one belongs to a branch. -/
theorem exists_drop_eq_cons {branches : List Branch} {splits : List Cursor}
    {levels : List (List Cursor)} (hl : (splits :: levels).length ≤ branches.length) :
    ∃ b bs, branches.drop levels.length = b :: bs :=
  ⟨_, _, List.drop_eq_getElem_cons hl⟩

/-- **A move keeps the outcome**, as long as there are no more levels than branches. -/
theorem outcome_step {branches : List Branch} {levels : List (List Cursor)}
    (hl : levels.length ≤ branches.length) :
    (step branches levels).outcome branches = resume branches levels := by
  rcases levels with _ | ⟨_ | ⟨s, splits⟩, levels⟩
  · rfl
  · rfl
  · obtain ⟨b, bs, hd⟩ := exists_drop_eq_cons hl
    rw [resume_cons_cons, step_cons_cons hd, hd, attempt]
    cases (b.steps s).reached? with
    | none => rfl
    | some r =>
      cases bs with
      | nil => rfl
      | cons b' bs' =>
        -- the branch just entered stands at the depth of the levels that stay open
        have hd' : branches.drop (splits :: levels).length = b' :: bs' := by
          rw [List.length_cons, ← List.drop_drop, hd, List.drop_one, List.tail_cons]
        exact resume_enter hd' r

/-- A move never opens more levels than there are branches. -/
theorem length_le_of_step {branches : List Branch} {levels next : List (List Cursor)}
    (hl : levels.length ≤ branches.length) (h : step branches levels = .pending next) :
    next.length ≤ branches.length := by
  rcases levels with _ | ⟨_ | ⟨s, splits⟩, levels⟩
  · cases h
  · cases h
    exact Nat.le_of_succ_le hl
  · obtain ⟨b, bs, hd⟩ := exists_drop_eq_cons hl
    rw [step_cons_cons hd] at h
    cases hr : (b.steps s).reached? with
    | none =>
      rw [hr] at h
      cases h
      exact hl
    | some r =>
      cases bs with
      | nil => rw [hr] at h; cases h
      | cons b' bs' =>
        rw [hr] at h
        cases h
        have hlen := congrArg List.length hd
        simp only [List.length_drop, List.length_cons] at hlen ⊢
        omega

/-! ## The whole search -/

/-- **The search finds what its levels hold.**  The induction is on the moves that are left. -/
theorem run_eq_resume {branches : List Branch} {levels : List (List Cursor)}
    (hl : levels.length ≤ branches.length) : run branches levels = resume branches levels := by
  induction levels using run.induct branches with
  | case1 levels next h ih =>
    rw [run, ← outcome_step hl, h]
    exact ih (length_le_of_step hl h)
  | case2 levels c h => rw [run, ← outcome_step hl, h]; rfl
  | case3 levels h => rw [run, ← outcome_step hl, h]; rfl
  | case4 levels h => rw [run, ← outcome_step hl, h]; rfl

/-- The search is the recursion, started behind the head. -/
theorem search_eq_recursive (head : Matcher) (branches : List Branch) :
    Matcher.search head branches = recursive head branches := by
  funext c
  rw [Matcher.search, recursive]
  cases (head c).reached? with
  | none => rfl
  | some r =>
    cases branches with
    | nil => rfl
    | cons b bs =>
      have hd : (b :: bs).drop ([] : List (List Cursor)).length = b :: bs := rfl
      show Attempt.ofOption (run (b :: bs) [b.splits r]) c = _
      rw [run_eq_resume (by simp), resume_enter hd, resume, Option.or_none]
      rfl

/-! ## Tuples of choices -/

/-- Completes the branches along a tuple of choices: each names a split point of its branch by the
number of split points in front of it. -/
def follow : List Branch → Cursor → List Nat → Option Cursor
  | [], c, [] => some c
  | b :: bs, c, n :: ns =>
      (b.splits c)[n]?.bind fun s => (b.steps s).reached?.bind fun r => follow bs r ns
  | _, _, _ => none

/-- The tuple completes the branches, and comes first among those that do. -/
def IsFirst (branches : List Branch) (c : Cursor) (ns : List Nat) : Prop :=
  (follow branches c ns).isSome ∧
    ∀ ms, (follow branches c ms).isSome → ns = ms ∨ List.Lex (· < ·) ns ms

/-- Only one tuple comes first. -/
theorem IsFirst.unique {branches : List Branch} {c : Cursor} {ns ms : List Nat}
    (hn : IsFirst branches c ns) (hm : IsFirst branches c ms) : ns = ms := by
  rcases hn.2 ms hm.1 with h | h
  · exact h
  · rcases hm.2 ns hn.1 with h' | h'
    · exact h'.symm
    · exact absurd h' (List.lex_asymm Nat.lt_asymm h)

/-- Where a tuple completes the branches, the recursion completes them. -/
theorem depthFirst_isSome_of_follow {branches : List Branch} {c : Cursor} {ns : List Nat}
    (h : (follow branches c ns).isSome) : (depthFirst branches c).isSome := by
  induction branches generalizing c ns with
  | nil => rfl
  | cons b bs ih =>
    cases ns with
    | nil => exact absurd h (by simp [follow])
    | cons n ns =>
      obtain ⟨x, hx⟩ := Option.isSome_iff_exists.1 h
      simp only [follow, Option.bind_eq_some_iff] at hx
      obtain ⟨s, hs, r, hr, hx⟩ := hx
      rw [depthFirst, List.findSome?_isSome_iff]
      refine ⟨s, List.mem_of_getElem? hs, ?_⟩
      rw [hr]
      exact ih (Option.isSome_iff_exists.2 ⟨x, hx⟩)

/-- Where the recursion completes the branches, it does so along the tuple that comes first. -/
theorem exists_isFirst_of_depthFirst {branches : List Branch} {c r : Cursor}
    (h : depthFirst branches c = some r) :
    ∃ ns, IsFirst branches c ns ∧ follow branches c ns = some r := by
  induction branches generalizing c with
  | nil =>
    refine ⟨[], ⟨rfl, fun ms hm => ?_⟩, h⟩
    cases ms with
    | nil => exact Or.inl rfl
    | cons m ms => exact absurd hm (by simp [follow])
  | cons b bs ih =>
    rw [depthFirst, List.findSome?_eq_some_iff] at h
    obtain ⟨before, s, after, hsplit, hs, hnone⟩ := h
    obtain ⟨m, hm, hd⟩ := Option.bind_eq_some_iff.1 hs
    obtain ⟨ns, hfirst, hfollow⟩ := ih hd
    have hns : follow (b :: bs) c (before.length :: ns) = some r := by
      simp [follow, hsplit, hm, hfollow]
    refine ⟨before.length :: ns, ⟨by rw [hns]; rfl, fun ks hk => ?_⟩, hns⟩
    -- another tuple that completes the branches starts at this split point or behind it
    cases ks with
    | nil => exact absurd hk (by simp [follow])
    | cons k ks =>
      obtain ⟨x, hx⟩ := Option.isSome_iff_exists.1 hk
      simp only [follow, Option.bind_eq_some_iff] at hx
      obtain ⟨s', hs', m', hm', hx⟩ := hx
      rcases Nat.lt_trichotomy before.length k with hlt | heq | hgt
      · exact Or.inr (List.Lex.rel hlt)
      · obtain rfl : s = s' := by simpa [hsplit, ← heq] using hs'
        obtain rfl : m = m' := Option.some.inj (hm.symm.trans hm')
        rcases hfirst.2 ks (Option.isSome_iff_exists.2 ⟨x, hx⟩) with h | h
        · exact Or.inl (by rw [heq, h])
        · exact Or.inr (heq ▸ List.Lex.cons h)
      · have hmem : s' ∈ before := by
          rw [hsplit, List.getElem?_append_left hgt] at hs'
          exact List.mem_of_getElem? hs'
        have hsome := depthFirst_isSome_of_follow (Option.isSome_iff_exists.2 ⟨x, hx⟩)
        have hdead := hnone s' hmem
        rw [hm', Option.bind_some] at hdead
        exact absurd hsome (by simp [hdead])

/-- **The recursion finds the first tuple**, and what that tuple leads to. -/
theorem depthFirst_eq_some_iff {branches : List Branch} {c r : Cursor} :
    depthFirst branches c = some r ↔
      ∃ ns, IsFirst branches c ns ∧ follow branches c ns = some r := by
  refine ⟨exists_isFirst_of_depthFirst, ?_⟩
  rintro ⟨ns, hn, hr⟩
  obtain ⟨r', hr'⟩ := Option.isSome_iff_exists.1 (depthFirst_isSome_of_follow hn.1)
  obtain ⟨ms, hm, hf⟩ := exists_isFirst_of_depthFirst hr'
  rw [hr', ← hf, hm.unique hn, hr]

/-- The recursion fails where no tuple completes the branches. -/
theorem depthFirst_eq_none_iff {branches : List Branch} {c : Cursor} :
    depthFirst branches c = none ↔ ∀ ns, follow branches c ns = none := by
  constructor
  · intro h ns
    cases hn : follow branches c ns with
    | none => rfl
    | some r =>
      have hs := depthFirst_isSome_of_follow (Option.isSome_iff_exists.2 ⟨r, hn⟩)
      exact absurd hs (by simp [h])
  · intro h
    cases hd : depthFirst branches c with
    | none => rfl
    | some r =>
      obtain ⟨ns, -, hf⟩ := exists_isFirst_of_depthFirst hd
      exact absurd hf (by simp [h])

/-- **The search is the depth-first recursion.**  It succeeds exactly where the head is read and
some tuple of choices completes the branches behind it, and then stops where the first such tuple
leads; otherwise it fails and stands where it began. -/
theorem search_finds_first_tuple (head : Matcher) (branches : List Branch) (c : Cursor) :
    Matcher.search head branches c = recursive head branches c ∧
    (∀ r, Matcher.search head branches c = ⟨true, r⟩ ↔
      ∃ m ns, (head c).reached? = some m ∧ IsFirst branches m ns ∧
        follow branches m ns = some r) ∧
    (Matcher.search head branches c = ⟨false, c⟩ ↔
      ∀ m, (head c).reached? = some m → ∀ ns, follow branches m ns = none) := by
  rw [search_eq_recursive]
  refine ⟨rfl, fun r => ?_, ?_⟩
  · rw [recursive, Attempt.ofOption_eq_true_iff, Option.bind_eq_some_iff]
    simp only [depthFirst_eq_some_iff, exists_and_left]
  · rw [recursive, Attempt.ofOption_eq_false_iff, Option.bind_eq_none_iff]
    simp only [depthFirst_eq_none_iff]

end IgnoreRules.Search
