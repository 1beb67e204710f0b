/-
# Searching with wildcards

A wildcard can stop at several places.  A search reads a head and then, for each wildcard, picks
one of its split points and runs the steps that follow the wildcard from there.  When a later
wildcard has no split point left, the search goes back to the one before it.

The split points not tried yet are kept level by level, one level for each wildcard entered so
far, the innermost first.  `Search.step` makes one move on these levels and `Search.run` moves
until a complete match is found or no level is left; `Search.work` is the number that each move
makes smaller.
-/
import IgnoreRules.Matcher

namespace IgnoreRules

/-- A wildcard of a search with what follows it, up to the next wildcard. -/
structure Branch where
  /-- The cursors at which the wildcard may stop, in the order in which they are tried. -/
  splits : Cursor → List Cursor
  /-- What has to be read behind the wildcard. -/
  steps : Matcher

namespace Search

/-! ## One move -/

/-- Where a search stands after a move. -/
inductive State where
  /-- The split points not tried yet, one level for each wildcard entered, innermost first. -/
  | pending (levels : List (List Cursor))
  /-- Every branch was completed, and the path was read up to this cursor. -/
  | found (c : Cursor)
  /-- No split point is left. -/
  | exhausted
  /-- There are more levels than branches. -/
  | stuck
deriving DecidableEq

/-- Tries the next split point of the innermost level, and drops the level when there is none.
The level at depth `d` belongs to the branch at index `d`. -/
def step (branches : List Branch) : List (List Cursor) → State
  | [] => .exhausted
  | [] :: levels => .pending levels
  | (split :: splits) :: levels =>
      match branches[levels.length]? with
      | none => .stuck
      | some branch =>
          match (branch.steps split).reached? with
          | none => .pending (splits :: levels)
          | some r =>
              match branches[levels.length + 1]? with
              | none => .found r
              | some next => .pending (next.splits r :: splits :: levels)

/-! ## The measure of a search -/

/-- The sum of some numbers. -/
def total (ns : List Nat) : Nat := ns.foldr (· + ·) 0

@[simp] theorem total_cons (n : Nat) (ns : List Nat) : total (n :: ns) = n + total ns := rfl

/-- An upper bound for the moves that the branches can take from a cursor on. -/
def effort : List Branch → Cursor → Nat
  | [], _ => 0
  | b :: bs, c =>
      1 + total ((b.splits c).map fun s => 1 + (b.steps s).reached?.elim 0 (effort bs))

/-- An upper bound for the moves spent on one split point of the first of the branches. -/
def effortAt : List Branch → Cursor → Nat
  | [], _ => 1
  | b :: bs, s => 1 + (b.steps s).reached?.elim 0 (effort bs)

/-- The effort at a branch is one step, and that at each of its split points. -/
theorem effort_cons (b : Branch) (bs : List Branch) (c : Cursor) :
    effort (b :: bs) c = 1 + total ((b.splits c).map (effortAt (b :: bs))) := rfl

/-- An upper bound for the moves left in a search with these levels. -/
def work (branches : List Branch) : List (List Cursor) → Nat
  | [] => 0
  | splits :: levels =>
      1 + total (splits.map (effortAt (branches.drop levels.length))) + work branches levels

/-- Each move leaves less work. -/
theorem work_lt_of_step {branches : List Branch} {levels next : List (List Cursor)}
    (h : step branches levels = .pending next) : work branches next < work branches levels := by
  unfold step at h
  split at h
  · simp at h
  · simp only [State.pending.injEq] at h
    subst h
    simp only [work]
    omega
  · next split splits levels =>
    split at h
    · simp at h
    · next branch hb =>
      have hd : branches.drop levels.length = branch :: branches.drop (levels.length + 1) := by
        obtain ⟨hlt, rfl⟩ := List.getElem?_eq_some_iff.1 hb
        exact List.drop_eq_getElem_cons hlt
      split at h
      · next hr =>
        simp only [State.pending.injEq] at h
        subst h
        simp [work, hd, effortAt, hr]
      · next r hr =>
        split at h
        · simp at h
        · next b hn =>
          have hd' : branches.drop (levels.length + 1) =
              b :: branches.drop (levels.length + 2) := by
            obtain ⟨hlt, rfl⟩ := List.getElem?_eq_some_iff.1 hn
            exact List.drop_eq_getElem_cons hlt
          simp only [State.pending.injEq] at h
          subst h
          have he := effort_cons b (branches.drop (levels.length + 2)) r
          simp only [work, List.length_cons, hd, hd', List.map_cons, total_cons, effortAt, hr,
            Option.elim_some, he]
          omega

/-! ## The search -/

/-- Moves until the branches are completed or no level is left. -/
def run (branches : List Branch) (levels : List (List Cursor)) : Option Cursor :=
  match _h : step branches levels with
  | .pending next => run branches next
  | .found c => some c
  | .exhausted => none
  | .stuck => none
termination_by work branches levels
decreasing_by exact work_lt_of_step _h

end Search

/-- Reads `head` and then completes each branch in turn.  A failed search stands where it
began. -/
def Matcher.search (head : Matcher) (branches : List Branch) : Matcher := fun c =>
  match (head c).reached? with
  | none => ⟨false, c⟩
  | some r =>
      match branches with
      | [] => ⟨true, r⟩
      | b :: _ => Attempt.ofOption (Search.run branches [b.splits r]) c

end IgnoreRules
