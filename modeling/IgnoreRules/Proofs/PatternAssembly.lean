/-
# Assembling a pattern turn by turn

`Pattern.compile` reads all tokens and then builds the matcher of them.  This module follows the
work as a loop that may go wrong: an `Assembly` holds what the turns so far have read and built,
`Assembly.turn` is one turn, and a `Fault` says what can be missing.  Nothing ever is.

* `turn_eq_ok` : no turn goes wrong, and it does what `Token.next` reads;
* `run_eq_ok` : the loop ends, and its slices make up the pattern;
* `assemble_eq_ok` : what is assembled is the matcher of the pattern.
-/
import IgnoreRules.Proofs.TokenSpelling
import IgnoreRules.Rule

namespace IgnoreRules

open Token (classify read? readLiteral readAll)

namespace Pattern

/-! ## The loop -/

/-- What can go wrong when a pattern is assembled. -/
inductive Fault where
  /-- A wildcard was announced and is not there. -/
  | unread (k : Token.Kind)
  /-- A run cannot be chained. -/
  | missing (m : Matcher.Missing)
  /-- The turns allowed did not reach the end of the pattern. -/
  | endless
deriving DecidableEq, Repr

/-- What the turns so far have read and built. -/
structure Assembly where
  /-- Where the next turn reads. -/
  pattern : Cursor
  /-- The text that each turn has read. -/
  slices : List (List Char)
  /-- The split points of each wildcard. -/
  splitters : List (Cursor → List Cursor)
  /-- The runs that a wildcard has ended. -/
  closed : List (List Matcher)
  /-- The run that is still open. -/
  last : List Matcher

namespace Assembly

/-- Nothing has been read from the cursor; the first run is open and seeded. -/
def start (p : Cursor) : Assembly := ⟨p, [], [], [], [.positive]⟩

/-- Reads up to `d`. -/
def moveTo (a : Assembly) (d : Cursor) : Assembly :=
  { a with pattern := d, slices := a.slices ++ [a.pattern.between d] }

/-- Adds a token: an element to the open run, a wildcard by closing it and opening another. -/
def add (a : Assembly) : Token → Assembly
  | .element e => { a with last := a.last ++ [e.matcher] }
  | .wildcard w =>
      { a with
        splitters := a.splitters ++ [w.splits]
        closed := a.closed ++ [a.last]
        last := [.positive] }

/-- The token kinds that are not built but split. -/
def isSplitting : Token.Kind → Bool
  | .star | .manySegments => true
  | _ => false

/-- One turn.  What is announced is read; only an element may be missing, and is then read as a
literal run. -/
def turn (a : Assembly) : Except Fault Assembly :=
  match classify a.pattern with
  | .negate => .ok (a.moveTo a.pattern.advance)
  | k =>
      match read? k a.pattern with
      | some (t, d) => .ok ((a.moveTo d).add t)
      | none =>
          if isSplitting k then .error (.unread k)
          else .ok ((a.moveTo (readLiteral a.pattern).2).add
            (.element (readLiteral a.pattern).1))

/-- Takes turns up to the end of the pattern, but no more than `n`. -/
def run : Nat → Assembly → Except Fault Assembly
  | 0, a => if a.pattern.atEnd then .ok a else .error .endless
  | n + 1, a => if a.pattern.atEnd then .ok a else a.turn.bind (run n)

/-- All the runs, the last with the end of the path behind it. -/
def runs (a : Assembly) : List (List Matcher) := a.closed ++ [a.last ++ [.endOfInput]]

/-- Chains a run. -/
def chained (ms : List Matcher) : Except Fault Matcher :=
  (Matcher.chain? ms.head? (ms.tail.map some)).mapError .missing

/-- Builds the matcher of what was assembled: the first run alone, or a search with the others. -/
def finish (a : Assembly) : Except Fault (Matcher × Cursor) :=
  (a.runs.mapM chained).bind fun
    | [] => .error (.missing .first)
    | head :: steps =>
        match a.splitters with
        | [] => .ok (head, a.pattern)
        | splitters => .ok (.search head (List.zipWith Branch.mk splitters steps), a.pattern)

end Assembly

/-- Assembles the pattern from the cursor on, with one turn for each character at most. -/
def assemble (p : Cursor) : Except Fault (Matcher × Cursor) :=
  (Assembly.run p.rest.length (.start p)).bind Assembly.finish

/-! ## One turn -/

namespace Assembly

/-- Adds tokens one after the other. -/
def addAll (a : Assembly) (ts : List Token) : Assembly := ts.foldl add a

@[simp] theorem addAll_nil (a : Assembly) : a.addAll [] = a := rfl

@[simp] theorem addAll_cons (a : Assembly) (t : Token) (ts : List Token) :
    a.addAll (t :: ts) = (a.add t).addAll ts := rfl

@[simp] theorem pattern_moveTo (a : Assembly) (d : Cursor) : (a.moveTo d).pattern = d := rfl

@[simp] theorem slices_moveTo (a : Assembly) (d : Cursor) :
    (a.moveTo d).slices = a.slices ++ [a.pattern.between d] := rfl

@[simp] theorem pattern_add (a : Assembly) (t : Token) : (a.add t).pattern = a.pattern := by
  cases t <;> rfl

@[simp] theorem slices_add (a : Assembly) (t : Token) : (a.add t).slices = a.slices := by
  cases t <;> rfl

@[simp] theorem pattern_addAll (a : Assembly) (ts : List Token) :
    (a.addAll ts).pattern = a.pattern := by
  induction ts generalizing a with
  | nil => rfl
  | cons t ts ih => rw [addAll_cons, ih, pattern_add]

@[simp] theorem slices_addAll (a : Assembly) (ts : List Token) :
    (a.addAll ts).slices = a.slices := by
  induction ts generalizing a with
  | nil => rfl
  | cons t ts ih => rw [addAll_cons, ih, slices_add]

/-- A wildcard that is announced is there. -/
theorem read?_isSome_of_isSplitting {c : Cursor} (h : isSplitting (classify c) = true) :
    (read? (classify c) c).isSome = true := by
  have hn : classify c ≠ .negate := by
    intro hk
    rw [hk] at h
    cases h
  cases hr : read? (classify c) c with
  | some x => rfl
  | none =>
    obtain ⟨hk, -⟩ := Token.read?_of_unclosed ((Token.read?_classify_eq_none_iff hn).1 hr)
    rw [hk] at h
    cases h

/-- **No turn goes wrong**, and a turn adds what is read next. -/
theorem turn_eq_ok (a : Assembly) :
    a.turn = .ok ((a.moveTo (Token.next a.pattern).2).addAll
      (Token.next a.pattern).1.toList) := by
  by_cases hn : classify a.pattern = .negate
  · rw [turn, Token.next, hn]
    rfl
  · rw [Token.next_of_not_negate hn, turn]
    split
    · next h => exact absurd h hn
    · cases hr : read? (classify a.pattern) a.pattern with
      | some x => rfl
      | none =>
        have hs : isSplitting (classify a.pattern) = false := by
          cases hs : isSplitting (classify a.pattern) with
          | false => rfl
          | true => exact absurd (read?_isSome_of_isSplitting hs) (by simp [hr])
        simp only [hs]
        rfl

/-- A turn before the end of the pattern reads at least one character, and none past the end. -/
theorem exists_turn_eq_ok {a : Assembly} (ha : a.pattern.atEnd = false) :
    ∃ b, a.turn = .ok b ∧ b.pattern.text = a.pattern.text ∧
      a.pattern.position < b.pattern.position ∧ b.pattern.position ≤ a.pattern.text.length := by
  have hr : a.pattern.rest ≠ [] := fun hr => by simp [(Cursor.atEnd_iff _).2 hr] at ha
  have hle := Token.le_next hr
  have hlt := Token.next_shorter hr
  have hsum := Cursor.position_add_length_of_le hle
  have hmax := Cursor.position_le_max_of_le hle
  have hpos : a.pattern.position < a.pattern.text.length := by
    rw [← Bool.not_eq_true, Cursor.atEnd_iff_length_le] at ha
    omega
  refine ⟨_, turn_eq_ok a, ?_, ?_, ?_⟩ <;> simp only [pattern_addAll, pattern_moveTo]
  · exact Cursor.text_eq_of_le hle
  · omega
  · omega

/-- A class that is never closed is read as a literal run. -/
theorem turn_of_unclosed {a : Assembly} (ha : Token.Unclosed a.pattern.rest) :
    a.turn = .ok ((a.moveTo (readLiteral a.pattern).2).add
      (.element (readLiteral a.pattern).1)) := by
  obtain ⟨hk, hr⟩ := Token.read?_of_unclosed ha
  simp only [turn, hk, hr]
  rfl

/-! ## The turns together -/

/-- Adding a token and moving on can be done in either order. -/
theorem moveTo_add (a : Assembly) (d : Cursor) (t : Token) :
    (a.moveTo d).add t = (a.add t).moveTo d := by
  cases t <;> rfl

/-- Where the pattern is read does not matter for what is added. -/
theorem moveTo_addAll (a : Assembly) (d : Cursor) (ts : List Token) :
    (a.moveTo d).addAll ts = (a.addAll ts).moveTo d := by
  induction ts generalizing a with
  | nil => rfl
  | cons t ts ih => rw [addAll_cons, addAll_cons, moveTo_add, ih]

theorem addAll_append (a : Assembly) (ts us : List Token) :
    a.addAll (ts ++ us) = (a.addAll ts).addAll us :=
  List.foldl_append

/-- **The loop ends** within as many turns as there are characters left.  It adds the tokens of the
pattern, stops behind the last, and the slices it reads make up what was left of the pattern. -/
theorem run_eq_ok {n : Nat} {a : Assembly} (hn : a.pattern.rest.length ≤ n) :
    ∃ ws, run n a = .ok { a.addAll (readAll a.pattern).1 with
        pattern := (readAll a.pattern).2, slices := a.slices ++ ws } ∧
      ws.flatten = a.pattern.rest ∧ ∀ w ∈ ws, w ≠ [] := by
  induction n generalizing a with
  | zero =>
    have hr : a.pattern.rest = [] := List.length_eq_zero_iff.1 (Nat.le_zero.1 hn)
    refine ⟨[], ?_, hr.symm, by simp⟩
    rw [run, if_pos ((Cursor.atEnd_iff _).2 hr), Token.readAll_of_rest_nil hr, List.append_nil]
    rfl
  | succ n ih =>
    by_cases hr : a.pattern.rest = []
    · refine ⟨[], ?_, hr.symm, by simp⟩
      rw [run, if_pos ((Cursor.atEnd_iff _).2 hr), Token.readAll_of_rest_nil hr, List.append_nil]
      rfl
    · have hle := Token.le_next hr
      have hlt := Token.next_shorter hr
      have hsplit := Cursor.between_append_rest hle
      rw [run, if_neg (mt (Cursor.atEnd_iff _).1 hr), turn_eq_ok, Except.bind,
        Token.readAll_of_rest_ne_nil hr]
      generalize Token.next a.pattern = x at *
      obtain ⟨ws, hz, hws, hne⟩ := ih (a := (a.moveTo x.2).addAll x.1.toList) (by simp; omega)
      refine ⟨a.pattern.between x.2 :: ws, ?_, ?_, ?_⟩
      · rw [hz]
        simp only [pattern_addAll, pattern_moveTo, slices_addAll, slices_moveTo]
        rw [← addAll_append, moveTo_addAll]
        simp [moveTo]
      · -- what this turn reads stands in front of what the later turns read
        rw [List.flatten_cons, hws]
        simpa using hsplit
      · rintro w (_ | ⟨_, hw⟩)
        · intro h
          rw [h, List.nil_append] at hsplit
          exact absurd hlt (by simp [hsplit])
        · exact hne w hw

/-! ## Building the matcher -/

/-- The runs of a pattern whose first run goes on behind `seed`. -/
def stages (seed : List Matcher) :
    List Element → List (Wildcard × List Element) → List (List Matcher)
  | es, [] => [seed ++ es.map Element.matcher ++ [.endOfInput]]
  | es, (_, fs) :: bs => (seed ++ es.map Element.matcher) :: stages [.positive] fs bs

/-- The runs of an assembly go on with those of the tokens that are added. -/
theorem runs_addAll (a : Assembly) (ts : List Token) :
    (a.addAll ts).runs
      = a.closed ++ stages a.last (Pattern.runs ts).1 (Pattern.runs ts).2 := by
  induction ts generalizing a with
  | nil => simp [runs, stages]
  | cons t ts ih =>
    rw [addAll_cons, ih]
    -- an element goes on with the open run, a wildcard closes it
    cases t with
    | element e =>
      rw [runs_element]
      cases (Pattern.runs ts).2 <;> simp [stages, add]
    | wildcard w =>
      rw [runs_wildcard]
      simp [stages, add]

/-- Each wildcard that is added brings its split points. -/
theorem splitters_addAll (a : Assembly) (ts : List Token) :
    (a.addAll ts).splitters
      = a.splitters ++ (Pattern.runs ts).2.map fun b => b.1.splits := by
  induction ts generalizing a with
  | nil => simp
  | cons t ts ih =>
    rw [addAll_cons, ih]
    cases t with
    | element e => rfl
    | wildcard w => simp [add]

/-- Chaining fails only where the first matcher is missing. -/
theorem chained_cons (m : Matcher) (ms : List Matcher) :
    chained (m :: ms) = .ok (.chain m ms) := by
  have h : (ms.map some).mapM id = some ms := by
    induction ms with
    | nil => rfl
    | cons m ms ih => simp [ih]
  simp only [chained, List.head?_cons, List.tail_cons, Matcher.chain?, h]
  rfl

/-- A run that is seeded is chained as an inner run of the pattern. -/
theorem chained_inner (es : List Element) :
    chained ([.positive] ++ es.map Element.matcher) = .ok (inner es) :=
  chained_cons _ _

/-- The last run is chained up to the end of the path. -/
theorem chained_final (es : List Element) :
    chained ([.positive] ++ es.map Element.matcher ++ [.endOfInput]) = .ok (final es) :=
  chained_cons _ _

/-- The runs behind the first become the steps of the branches. -/
theorem mapM_chained_stages (w : Wildcard) (fs : List Element)
    (bs : List (Wildcard × List Element)) :
    (stages [.positive] fs bs).mapM chained
      = .ok ((branches ((w, fs) :: bs)).map Branch.steps) := by
  induction bs generalizing w fs with
  | nil =>
    rw [stages, List.mapM_cons, chained_final]
    rfl
  | cons b bs ih =>
    rw [stages, List.mapM_cons, chained_inner, ih b.1 b.2]
    rfl

/-- A branch tries the split points of its wildcard. -/
theorem map_splits_branches (bs : List (Wildcard × List Element)) :
    (branches bs).map Branch.splits = bs.map fun b => b.1.splits := by
  induction bs with
  | nil => rfl
  | cons b bs ih =>
    cases bs with
    | nil => rfl
    | cons b' bs =>
      show b.1.splits :: (branches (b' :: bs)).map Branch.splits = _
      rw [ih]
      rfl

theorem zipWith_branches (bs : List Branch) :
    List.zipWith Branch.mk (bs.map Branch.splits) (bs.map Branch.steps) = bs := by
  induction bs with
  | nil => rfl
  | cons b bs ih => rw [List.map_cons, List.map_cons, List.zipWith_cons_cons, ih]

/-- **What all tokens of a pattern assemble to is its matcher.** -/
theorem finish_eq_ok {z : Assembly} {ts : List Token}
    (hr : z.runs = stages [.positive] (Pattern.runs ts).1 (Pattern.runs ts).2)
    (hs : z.splitters = (Pattern.runs ts).2.map fun b => b.1.splits) :
    z.finish = .ok (matcher ts, z.pattern) := by
  rw [finish, hr, hs, matcher]
  generalize (Pattern.runs ts).1 = es
  cases hb : (Pattern.runs ts).2 with
  | nil =>
    rw [stages, List.mapM_cons, chained_final]
    rfl
  | cons b bs =>
    have hzip := zipWith_branches (branches (b :: bs))
    rw [map_splits_branches] at hzip
    rw [stages, List.mapM_cons, chained_inner, mapM_chained_stages b.1]
    show Except.ok (Matcher.search (inner es) (List.zipWith Branch.mk _ _), z.pattern) = _
    rw [hzip]

end Assembly

/-! ## The whole pattern -/

/-- The loop over a pattern ends; its slices make up the pattern, none is empty, and what it
assembles is the matcher of the pattern with the cursor behind it. -/
theorem exists_run_start_eq_ok (p : Cursor) :
    ∃ z : Assembly, Assembly.run p.rest.length (.start p) = .ok z ∧ z.pattern.atEnd = true ∧
      z.slices.flatten = p.rest ∧ (∀ w ∈ z.slices, w ≠ []) ∧ z.finish = .ok (compile p) := by
  obtain ⟨ws, hz, hws, hne⟩ := Assembly.run_eq_ok (a := .start p) (Nat.le_refl _)
  exact ⟨_, hz, (Cursor.atEnd_iff _).2 (Token.readAll_reaches_end p).2, hws, hne,
    Assembly.finish_eq_ok (Assembly.runs_addAll (.start p) _)
      (Assembly.splitters_addAll (.start p) _)⟩

/-- **Nothing goes wrong**: a pattern assembles to its matcher. -/
theorem assemble_eq_ok (p : Cursor) : assemble p = .ok (compile p) := by
  obtain ⟨z, hz, -, -, -, hf⟩ := exists_run_start_eq_ok p
  rw [assemble, hz]
  exact hf

/-- The cursor behind a pattern stands at the end of its text, or where it began past the end. -/
theorem compile_snd (p : Cursor) :
    (compile p).2 = .seek p.text (max p.position p.text.length) := by
  obtain ⟨hle, hend⟩ := Token.readAll_reaches_end p
  exact Cursor.eq_seek_of_le_of_rest_nil hle hend

end Pattern

namespace Rule

/-- Compiles a line with a pattern that may go wrong. -/
def assemble (line : List Char) : Except Pattern.Fault Rule :=
  (if Pattern.isBlank (.start line) then .ok (.negative, .start line)
    else Pattern.assemble (.start line)).map fun m => { compile line with matcher := m.1 }

/-- Every line compiles. -/
theorem assemble_eq_ok (line : List Char) : assemble line = .ok (compile line) := by
  rw [assemble, Pattern.assemble_eq_ok]
  have hm : (compile line).matcher = matcherOf line := rfl
  by_cases hb : Pattern.isBlank (.start line) = true
  · rw [if_pos hb]
    rw [matcherOf, if_pos hb] at hm
    rw [← hm]
    rfl
  · rw [if_neg hb]
    rw [matcherOf, if_neg hb] at hm
    show Except.ok { compile line with matcher := (Pattern.compile (.start line)).1 } = _
    rw [← hm]

end Rule

namespace Pattern

/-- **Compilation is total and covers the whole pattern.**  The loop over a pattern ends; its turns
read slices that are not empty and make up the pattern, and each moves the cursor on within the
text.  A wildcard that is announced is always there, and an element is missing exactly where a
class is never closed, which is then read as a literal run.  So nothing goes wrong, the cursor
behind the pattern stands at the end, and every line compiles. -/
theorem compilation_is_total (p : Cursor) :
    (∃ z : Assembly, Assembly.run p.rest.length (.start p) = .ok z ∧ z.pattern.atEnd = true ∧
      z.slices.flatten = p.rest ∧ (∀ w ∈ z.slices, w ≠ []) ∧ z.finish = .ok (compile p)) ∧
    (∀ a : Assembly, a.pattern.atEnd = false → ∃ b, a.turn = .ok b ∧
      b.pattern.text = a.pattern.text ∧ a.pattern.position < b.pattern.position ∧
      b.pattern.position ≤ a.pattern.text.length) ∧
    (∀ c, Assembly.isSplitting (classify c) = true → (read? (classify c) c).isSome = true) ∧
    (∀ c, classify c ≠ .negate →
      (read? (classify c) c = none ↔ ∃ r, c.rest = '[' :: r ∧ ']' ∉ r)) ∧
    (∀ a : Assembly, (∃ r, a.pattern.rest = '[' :: r ∧ ']' ∉ r) →
      a.turn = .ok ((a.moveTo (readLiteral a.pattern).2).add
        (.element (readLiteral a.pattern).1))) ∧
    (compile p).2 = .seek p.text (max p.position p.text.length) ∧
    assemble p = .ok (compile p) ∧
    ∀ line, Rule.assemble line = .ok (Rule.compile line) :=
  ⟨exists_run_start_eq_ok p, fun _ ha => Assembly.exists_turn_eq_ok ha,
    fun _ hc => Assembly.read?_isSome_of_isSplitting hc,
    fun _ hn => Token.read?_classify_eq_none_iff hn, fun _ ha => Assembly.turn_of_unclosed ha,
    compile_snd p, assemble_eq_ok p, Rule.assemble_eq_ok⟩

end Pattern

end IgnoreRules
