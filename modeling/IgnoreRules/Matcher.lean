/-
# Matchers

A matcher reads from a cursor over a path and says whether it succeeded and where it stopped.
A failed attempt also carries a cursor: the matchers of this module either hand back the cursor
they were given or, as `Matcher.endOfInput` does, one they had already moved.

* `Matcher.sequence w` reads the text `w`;
* `Matcher.endOfInput` accepts the end of the path, after at most one separator;
* `Matcher.chain` runs matchers one after the other and gives up at its own starting point.
-/
import IgnoreRules.Cursor

namespace IgnoreRules

/-- What a matcher answers: whether it succeeded, and the cursor it stopped at. -/
structure Attempt where
  /-- The matcher succeeded. -/
  matched : Bool
  /-- Where the matcher stopped. -/
  cursor : Cursor
deriving DecidableEq

namespace Attempt

/-- The attempt that reached `r`, or that failed and stands at `checkpoint`. -/
def ofOption (r : Option Cursor) (checkpoint : Cursor) : Attempt :=
  match r with
  | some c => ⟨true, c⟩
  | none => ⟨false, checkpoint⟩

@[simp] theorem ofOption_some (c checkpoint : Cursor) :
    ofOption (some c) checkpoint = ⟨true, c⟩ := rfl

@[simp] theorem ofOption_none (checkpoint : Cursor) :
    ofOption none checkpoint = ⟨false, checkpoint⟩ := rfl

/-- An attempt matches exactly if something was reached. -/
theorem ofOption_eq_true_iff {o : Option Cursor} {checkpoint r : Cursor} :
    ofOption o checkpoint = ⟨true, r⟩ ↔ o = some r := by
  cases o <;> simp [ofOption]

theorem ofOption_eq_false_iff {o : Option Cursor} {checkpoint : Cursor} :
    ofOption o checkpoint = ⟨false, checkpoint⟩ ↔ o = none := by
  cases o <;> simp [ofOption]

/-- The cursor of a successful attempt. -/
def reached? (a : Attempt) : Option Cursor := if a.matched then some a.cursor else none

/-- An attempt reached what was reached. -/
@[simp] theorem reached?_ofOption (r : Option Cursor) (checkpoint : Cursor) :
    (ofOption r checkpoint).reached? = r := by
  cases r <;> rfl

end Attempt

/-- A matcher makes an attempt from a cursor. -/
abbrev Matcher := Cursor → Attempt

namespace Matcher

/-! ## Matchers that read nothing or one text -/

/-- Succeeds and reads nothing. -/
def positive : Matcher := fun c => ⟨true, c⟩

/-- Fails and reads nothing. -/
def negative : Matcher := fun c => ⟨false, c⟩

/-- Reads the text `w` character by character. -/
def consume : List Char → Cursor → Option Cursor
  | [], c => some c
  | x :: w, c => if c.current = some x then consume w c.advance else none

@[simp] theorem consume_nil (c : Cursor) : consume [] c = some c := rfl

theorem consume_cons (x : Char) (w : List Char) (c : Cursor) :
    consume (x :: w) c = if c.current = some x then consume w c.advance else none := rfl

/-- Reading succeeds exactly when the text comes next, and then stops right behind it. -/
theorem consume_eq_some_iff {w : List Char} {c r : Cursor} :
    consume w c = some r ↔ w <+: c.rest ∧ r = Cursor.advanceBy w.length c := by
  induction w generalizing c with
  | nil => simp [eq_comm]
  | cons x w ih =>
      rw [consume_cons, Cursor.current]
      cases h : c.rest with
      | nil => simp
      | cons y s =>
          by_cases hxy : y = x
          · simp [ih, h, hxy, Cursor.advanceBy]
          · simp [hxy, Ne.symm hxy]

/-- Reads the text `w`, and stands still where it does not come next. -/
def sequence (w : List Char) : Matcher := fun c => Attempt.ofOption (consume w c) c

/-- Accepts the end of the path.  One separator may stand before it, and is read even when more
follows. -/
def endOfInput : Matcher := fun c =>
  match c.rest with
  | '/' :: r => ⟨r.isEmpty, c.advance⟩
  | r => ⟨r.isEmpty, c⟩

/-! ## Running matchers in sequence -/

/-- Runs each matcher where the one before it stopped. -/
def followAll : List Matcher → Cursor → Option Cursor
  | [], c => some c
  | m :: ms, c => (m c).reached?.bind (followAll ms)

@[simp] theorem followAll_nil (c : Cursor) : followAll [] c = some c := rfl

@[simp] theorem followAll_cons (m : Matcher) (ms : List Matcher) (c : Cursor) :
    followAll (m :: ms) c = (m c).reached?.bind (followAll ms) := rfl

/-- Matchers are followed one after the other. -/
theorem followAll_append (ms ns : List Matcher) (c : Cursor) :
    followAll (ms ++ ns) c = (followAll ms c).bind (followAll ns) := by
  induction ms generalizing c with
  | nil => rfl
  | cons m ms ih => cases h : (m c).reached? <;> simp [h, ih]

/-- Runs `first` and then each of `rest`.  A failure of `first` is handed on as it is; after a
later failure the chain stands where it began. -/
def chain (first : Matcher) (rest : List Matcher) : Matcher := fun c =>
  let a := first c
  if a.matched then Attempt.ofOption (followAll rest a.cursor) c else a

/-- Which place of a chain was left without a matcher. -/
inductive Missing where
  | first
  | later
deriving DecidableEq, Repr

/-- The report of a chain that cannot be built. -/
def Missing.message : Missing → String
  | .first => "chain: first matcher is missing"
  | .later => "chain: matcher is missing"

/-- Builds a chain whose places may be empty; an empty first place is reported before any other. -/
def chain? (first : Option Matcher) (rest : List (Option Matcher)) : Except Missing Matcher :=
  match first, rest.mapM id with
  | none, _ => .error .first
  | some _, none => .error .later
  | some m, some ms => .ok (chain m ms)

end Matcher

end IgnoreRules
