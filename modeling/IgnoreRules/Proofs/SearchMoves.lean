/-
# The moves of a search

A search goes from levels to levels, one move at a time.  This module follows the moves from where
the search begins: there are never more levels than branches, so a level always finds its branch,
and the moves come to an end, where the answer of the search is known.

* `Moves`, `Comes` : one move, and the levels that a search comes to;
* `step_cases` : all that a move can be, as long as there are no more levels than branches;
* `work_add_le` : moves one after the other use up the work that there was;
* `search_ends_inside_its_branches` : every level has its branch, and there is no infinite run.
-/
import IgnoreRules.Proofs.DepthFirst

namespace IgnoreRules.Search

variable {head : Matcher} {branches : List Branch} {c : Cursor}
  {levels next outer : List (List Cursor)} {split : Cursor} {splits : List Cursor}

/-! ## Where a search comes to -/

/-- One move leads from some levels to others. -/
def Moves (branches : List Branch) (levels next : List (List Cursor)) : Prop :=
  step branches levels = .pending next

/-- A search from a cursor comes to these levels. -/
inductive Comes (head : Matcher) (branches : List Branch) (c : Cursor) :
    List (List Cursor) → Prop where
  /-- It begins behind the head, with all split points of the first branch. -/
  | start {m : Cursor} {b : Branch} (hm : (head c).reached? = some m)
      (hb : branches[0]? = some b) : Comes head branches c [b.splits m]
  | move {levels next : List (List Cursor)} (hl : Comes head branches c levels)
      (h : Moves branches levels next) : Comes head branches c next

/-- **There are never more levels than branches.** -/
theorem Comes.length_le (h : Comes head branches c levels) : levels.length ≤ branches.length := by
  induction h with
  | start _ hb => exact (List.getElem?_eq_some_iff.1 hb).1
  | move _ hmove ih => exact length_le_of_step ih hmove

/-! ## What a move can be -/

/-- **A split point has its branch.**  If the steps of the branch fail, the search goes on with the
other split points.  If they succeed, that was the last of the branches, and the search has found
where it ends, or there is a next one, and its split points are added as a new level. -/
theorem step_of_split (hl : ((split :: splits) :: outer).length ≤ branches.length) :
    ∃ b, branches[outer.length]? = some b ∧
      ((b.steps split).reached? = none →
        step branches ((split :: splits) :: outer) = .pending (splits :: outer)) ∧
      ∀ r, (b.steps split).reached? = some r →
        outer.length + 1 = branches.length ∧
          step branches ((split :: splits) :: outer) = .found r ∨
        ∃ b', branches[outer.length + 1]? = some b' ∧
          step branches ((split :: splits) :: outer)
            = .pending (b'.splits r :: splits :: outer) := by
  have hlt : outer.length < branches.length := hl
  refine ⟨branches[outer.length], List.getElem?_eq_getElem hlt, ?_, ?_⟩
  · intro hr
    simp only [step, List.getElem?_eq_getElem hlt, hr]
  · intro r hr
    by_cases hlast : outer.length + 1 = branches.length
    · have hnone : branches[outer.length + 1]? = none :=
        List.getElem?_eq_none (Nat.le_of_eq hlast.symm)
      refine Or.inl ⟨hlast, ?_⟩
      simp only [step, List.getElem?_eq_getElem hlt, hr, hnone]
    · have hnext : outer.length + 1 < branches.length := by omega
      refine Or.inr ⟨branches[outer.length + 1], List.getElem?_eq_getElem hnext, ?_⟩
      simp only [step, List.getElem?_eq_getElem hlt, hr, List.getElem?_eq_getElem hnext]

/-- With no more levels than branches, a search is not stuck. -/
theorem step_ne_stuck (hl : levels.length ≤ branches.length) : step branches levels ≠ .stuck := by
  rcases levels with _ | ⟨_ | ⟨split, splits⟩, outer⟩
  · exact State.noConfusion
  · exact State.noConfusion
  · obtain ⟨b, -, hfail, hgo⟩ := step_of_split hl
    cases hr : (b.steps split).reached? with
    | none =>
      rw [hfail hr]
      exact State.noConfusion
    | some r =>
      rcases hgo r hr with ⟨-, hfound⟩ | ⟨b', -, hpush⟩
      · rw [hfound]
        exact State.noConfusion
      · rw [hpush]
        exact State.noConfusion

/-! ## The end of the moves -/

/-- **Moves use up work**: after `n` of them there is less than before, by at least `n`. -/
theorem work_add_le {run : Nat → List (List Cursor)} {n : Nat}
    (h : ∀ i < n, Moves branches (run i) (run (i + 1))) :
    work branches (run n) + n ≤ work branches (run 0) := by
  induction n with
  | zero => exact Nat.le_refl _
  | succ n ih =>
    have hbefore := ih fun i hi => h i (Nat.lt_succ_of_lt hi)
    have hlast := work_lt_of_step (h n (Nat.lt_succ_self n))
    omega

/-- Nobody can move for ever. -/
theorem not_forall_moves (run : Nat → List (List Cursor)) :
    ¬∀ n, Moves branches (run n) (run (n + 1)) := by
  intro h
  have hall := work_add_le (n := work branches (run 0) + 1) fun i _ => h i
  omega

/-- The moves lead to levels in which the search is over, and these tell what it finds. -/
theorem Comes.exists_end (h : Comes head branches c levels) :
    ∃ last, Comes head branches c last ∧
      ((∃ r, step branches last = .found r ∧ run branches levels = some r) ∨
        step branches last = .exhausted ∧ run branches levels = none) := by
  induction levels using run.induct branches with
  | case1 levels next hstep ih =>
    obtain ⟨last, hlast, hend⟩ := ih (h.move hstep)
    have hrun : run branches levels = run branches next := by rw [run, hstep]
    rw [hrun]
    exact ⟨last, hlast, hend⟩
  | case2 levels r hstep =>
    refine ⟨levels, h, Or.inl ⟨r, hstep, ?_⟩⟩
    rw [run, hstep]
  | case3 levels hstep =>
    refine ⟨levels, h, Or.inr ⟨hstep, ?_⟩⟩
    rw [run, hstep]
  | case4 levels hstep => exact absurd hstep (step_ne_stuck h.length_le)

/-- A search with a branch answers what the moves from its first levels find. -/
theorem search_eq_ofOption_run {m : Cursor} {b : Branch} (hm : (head c).reached? = some m)
    (hb : branches[0]? = some b) :
    Matcher.search head branches c = Attempt.ofOption (run branches [b.splits m]) c := by
  obtain ⟨bs, rfl⟩ : ∃ bs, branches = b :: bs :=
    List.head?_eq_some_iff.1 (List.head?_eq_getElem? ▸ hb)
  rw [Matcher.search, hm]

/-- **A search ends, and stays inside its branches.**  Whatever the head, the branches and the
cursor, in all levels that the search comes to: there are no more levels than branches; the
innermost level finds its branch, for each of its split points; and where the steps of that branch
succeed and it is not the last one, the next branch is there, whose split points are added.  Nobody
can move for ever, from whatever levels.  So the moves lead to levels in which the search has found
where it ends, or in which no split point is left, and the search answers accordingly. -/
theorem search_ends_inside_its_branches (head : Matcher) (branches : List Branch) (c : Cursor) :
    (∀ levels, Comes head branches c levels →
      levels.length ≤ branches.length ∧
      ∀ split splits outer, levels = (split :: splits) :: outer →
        ∃ b, branches[outer.length]? = some b ∧
          ((b.steps split).reached? = none →
            step branches levels = .pending (splits :: outer)) ∧
          ∀ r, (b.steps split).reached? = some r →
            outer.length + 1 = branches.length ∧ step branches levels = .found r ∨
            ∃ b', branches[outer.length + 1]? = some b' ∧
              step branches levels = .pending (b'.splits r :: splits :: outer)) ∧
    (∀ run : Nat → List (List Cursor), ¬∀ n, Moves branches (run n) (run (n + 1))) ∧
    ∀ m b, (head c).reached? = some m → branches[0]? = some b →
      ∃ last, Comes head branches c last ∧
        ((∃ r, step branches last = .found r ∧ Matcher.search head branches c = ⟨true, r⟩) ∨
          step branches last = .exhausted ∧ Matcher.search head branches c = ⟨false, c⟩) := by
  refine ⟨?_, not_forall_moves, ?_⟩
  · intro levels hl
    have hle := hl.length_le
    refine ⟨hle, ?_⟩
    rintro split splits outer rfl
    exact step_of_split hle
  · intro m b hm hb
    obtain ⟨last, hlast, hend⟩ := (Comes.start hm hb).exists_end
    refine ⟨last, hlast, ?_⟩
    rw [search_eq_ofOption_run hm hb]
    rcases hend with ⟨r, hfound, hrun⟩ | ⟨hover, hrun⟩
    · exact Or.inl ⟨r, hfound, by rw [hrun]; rfl⟩
    · exact Or.inr ⟨hover, by rw [hrun]; rfl⟩

end IgnoreRules.Search
