/-
# Looking ahead and reading

Whether a text stands at a cursor can be found out in two ways.  `Cursor.startsWith` looks ahead and
holds the text against all that is left.  `Matcher.sequence` reads: it takes one character after the
other, and gives up where one differs or none is left.  The kind of a token is found by looking
ahead and the token by reading, so the two have to agree, also at the end of a text and behind it.

* `Cursor.StandsAt` : a text stands at a position of another one, said without a cursor;
* `Cursor.startsWith_iff_standsAt` : what is looked for is found exactly where it stands;
* `sequence_of_prefix_rest`, `sequence_of_not_prefix_rest` : where reading stops;
* `matched_eq_startsWith_iff` : only on the empty text behind the end do the two differ;
* `lookahead_agrees_with_reading` : everywhere else they agree, and reading takes what was found;
* `Token.classify_eq_iff_isSome_read?` : a kind that is looked for is found where its token is read.
-/
import IgnoreRules.Proofs.CursorOrder
import IgnoreRules.Token

namespace IgnoreRules

/-! ## Looking ahead -/

namespace Cursor

variable {c : Cursor} {w text : List Char} {position : Nat}

/-- The text has `w` behind as many characters as the position says. -/
def StandsAt (w text : List Char) (position : Nat) : Prop :=
  ∃ front behind, text = front ++ (w ++ behind) ∧ front.length = position

/-- Nothing stands behind the end of a text, not even the empty text. -/
theorem standsAt_iff :
    StandsAt w text position ↔ w <+: text.drop position ∧ position ≤ text.length := by
  constructor
  · rintro ⟨front, behind, rfl, rfl⟩
    constructor
    · rw [List.drop_left]
      exact List.prefix_append w behind
    · rw [List.length_append]
      exact Nat.le_add_right _ _
  · rintro ⟨⟨behind, hbehind⟩, hle⟩
    refine ⟨text.take position, behind, ?_, ?_⟩
    · rw [hbehind, List.take_append_drop]
    · rw [List.length_take, Nat.min_eq_left hle]

/-- Where a character is left to read, the cursor is not behind the end. -/
theorem position_le_of_prefix_rest (hw : w ≠ []) (h : w <+: c.rest) :
    c.position ≤ c.text.length := by
  have hrest : c.rest ≠ [] := by
    intro hnil
    rw [hnil] at h
    exact hw (List.prefix_nil.1 h)
  have hend : ¬c.text.length ≤ c.position := by
    rwa [← c.atEnd_iff_length_le, c.atEnd_iff]
  omega

/-- A text is found where it comes next; the empty one comes next everywhere, but is not found
behind the end. -/
theorem startsWith_iff :
    c.startsWith w = true ↔ w <+: c.rest ∧ (w = [] → c.position ≤ c.text.length) := by
  have hguard : (!w.isEmpty || decide (c.position ≤ c.text.length)) = true
      ↔ (w = [] → c.position ≤ c.text.length) := by
    rw [Bool.or_eq_true, Bool.not_eq_true', List.isEmpty_eq_false_iff, decide_eq_true_iff,
      Decidable.imp_iff_not_or]
  rw [startsWith, Bool.and_eq_true, List.isPrefixOf_iff_prefix, hguard]

/-- The rest begins with a text, unless that is empty. -/
theorem startsWith_iff_of_ne_nil (hw : w ≠ []) : c.startsWith w = true ↔ w <+: c.rest := by
  rw [startsWith_iff]
  exact and_iff_left fun h => absurd h hw

/-- **What is looked for is found exactly where it stands.** -/
theorem startsWith_iff_standsAt : c.startsWith w = true ↔ StandsAt w c.text c.position := by
  rw [startsWith_iff, standsAt_iff, ← c.rest_eq]
  constructor
  · rintro ⟨hnext, hle⟩
    by_cases hw : w = []
    · exact ⟨hnext, hle hw⟩
    · exact ⟨hnext, position_le_of_prefix_rest hw hnext⟩
  · rintro ⟨hnext, hle⟩
    exact ⟨hnext, fun _ => hle⟩

end Cursor

/-! ## Reading -/

namespace Matcher

variable {c : Cursor} {w : List Char}

/-- A text that comes next is read to its end. -/
theorem sequence_of_prefix_rest (h : w <+: c.rest) :
    sequence w c = ⟨true, Cursor.advanceBy w.length c⟩ := by
  rw [sequence, Attempt.ofOption_eq_true_iff, consume_eq_some_iff]
  exact ⟨h, rfl⟩

/-- A text that does not come next is given up, wherever it began to differ. -/
theorem sequence_of_not_prefix_rest (h : ¬w <+: c.rest) : sequence w c = ⟨false, c⟩ := by
  rw [sequence, Attempt.ofOption_eq_false_iff, Option.eq_none_iff_forall_ne_some]
  intro d hd
  exact h (consume_eq_some_iff.1 hd).1

/-- A sequence is matched exactly if the rest begins with it. -/
theorem matched_sequence_iff : (sequence w c).matched = true ↔ w <+: c.rest := by
  by_cases h : w <+: c.rest
  · simp [sequence_of_prefix_rest h, h]
  · simp [sequence_of_not_prefix_rest h, h]

/-! ## Both of them -/

/-- **Looking ahead and reading differ only on the empty text behind the end**, which is read there
but not found. -/
theorem matched_eq_startsWith_iff :
    (sequence w c).matched = c.startsWith w ↔ (w = [] → c.position ≤ c.text.length) := by
  rw [Bool.eq_iff_iff, matched_sequence_iff, Cursor.startsWith_iff, iff_self_and]
  constructor
  · rintro h rfl
    exact h List.nil_prefix rfl
  · intro h _
    exact h

/-- Behind the end of `a` the empty text is read and not found. -/
example :
    (sequence [] (.seek ['a'] 2)).matched = true ∧ (Cursor.seek ['a'] 2).startsWith [] = false := by
  decide

/-- **Looking ahead and reading agree.**  At any cursor, also behind the end of its text, any text
(behind the end, any but the empty one) is found by looking ahead exactly where it can be read.
This is where what is left begins with it, and where it stands in the text of the cursor.  Reading
it moves the cursor over it, within the same text, and leaves what was left without it; where it
cannot be read, the cursor is handed back as it was. -/
theorem lookahead_agrees_with_reading (c : Cursor) (w : List Char)
    (h : w = [] → c.position ≤ c.text.length) :
    (c.startsWith w = true ↔ (sequence w c).matched = true) ∧
    (c.startsWith w = true ↔ w <+: c.rest) ∧
    (c.startsWith w = true ↔ Cursor.StandsAt w c.text c.position) ∧
    ((sequence w c).matched = true →
      (sequence w c).cursor.text = c.text ∧
      (sequence w c).cursor.position = c.position + w.length ∧
      (sequence w c).cursor.rest = c.rest.drop w.length) ∧
    ((sequence w c).matched = false → (sequence w c).cursor = c) := by
  have hagree : (sequence w c).matched = c.startsWith w := matched_eq_startsWith_iff.2 h
  refine ⟨?_, ?_, Cursor.startsWith_iff_standsAt, ?_, ?_⟩
  · rw [hagree]
  · rw [← hagree, matched_sequence_iff]
  · intro hread
    have hnext : w <+: c.rest := matched_sequence_iff.1 hread
    rw [sequence_of_prefix_rest hnext]
    refine ⟨Cursor.text_advanceBy _ c, ?_, Cursor.rest_advanceBy _ c⟩
    rw [Cursor.position_advanceBy, Nat.min_eq_left hnext.length_le]
  · intro hread
    have hnext : ¬w <+: c.rest := by
      rw [← matched_sequence_iff, hread]
      exact Bool.false_ne_true
    rw [sequence_of_not_prefix_rest hnext]

/-- In `a/**/b`, `/**/` is found behind the `a` and read up to the `b`; behind the end it is neither
found nor read, and the cursor is handed back. -/
theorem lookahead_agrees_with_reading_in_and_behind_text :
    let text := ['a', '/', '*', '*', '/', 'b']
    let w := ['/', '*', '*', '/']
    let inside := Cursor.seek text 1
    let behind := Cursor.seek text 9
    (w = [] → inside.position ≤ inside.text.length) ∧
      (w = [] → behind.position ≤ behind.text.length) ∧
      inside.startsWith w = true ∧ (sequence w inside).matched = true ∧
      (sequence w inside).cursor = .seek text 5 ∧
      behind.startsWith w = false ∧ (sequence w behind).matched = false ∧
      (sequence w behind).cursor = behind := by
  intro text w inside behind
  have hw : w ≠ [] := List.cons_ne_nil _ _
  have hinside : w = [] → inside.position ≤ inside.text.length := fun h => absurd h hw
  have hbehind : w = [] → behind.position ≤ behind.text.length := fun h => absurd h hw
  obtain ⟨hread, -, -, hmoved, -⟩ := lookahead_agrees_with_reading inside w hinside
  obtain ⟨hread', -, -, -, hkept⟩ := lookahead_agrees_with_reading behind w hbehind
  have hfound : inside.startsWith w = true := by decide
  have hmissed : behind.startsWith w = false := by decide
  have hfailed : (sequence w behind).matched = false := by
    rw [← Bool.not_eq_true, ← hread', hmissed]
    exact Bool.false_ne_true
  obtain ⟨htext, hposition, -⟩ := hmoved (hread.1 hfound)
  exact ⟨hinside, hbehind, hfound, hread.1 hfound, Cursor.eq_of_text_position htext hposition,
    hmissed, hfailed, hkept hfailed⟩

end Matcher

/-! ## Kinds that are looked for -/

namespace Token

variable {c : Cursor} {k : Kind} {w : List Char}

/-- The text that is looked for where the next character does not tell the kind. -/
def Kind.lookedFor? : Kind → Option (List Char)
  | .manySegments => some Wildcard.manySegments.text
  | .anySegment => some anySegmentText
  | _ => none

/-- Two kinds of tokens are looked for by their texts. -/
theorem Kind.lookedFor?_eq_some_iff :
    k.lookedFor? = some w ↔
      (k = .manySegments ∧ w = Wildcard.manySegments.text) ∨
      (k = .anySegment ∧ w = anySegmentText) := by
  cases k <;> simp [lookedFor?, eq_comm]

/-- Where a separator stands, two texts are looked for, the longer one first. -/
theorem classify_of_separator (h : c.current = some '/') :
    classify c = if c.startsWith Wildcard.manySegments.text then .manySegments
      else if c.startsWith anySegmentText then .anySegment else .separator := by
  rw [classify, h]
  rfl

/-- Where no separator stands, nothing is looked for. -/
theorem lookedFor?_classify (h : c.current ≠ some '/') : (classify c).lookedFor? = none := by
  rw [classify]
  split
  · split <;> rfl
  · next hs => exact absurd hs h
  all_goals rfl

/-- The texts that are looked for begin with a separator. -/
theorem current_of_startsWith (hk : k.lookedFor? = some w) (h : c.startsWith w = true) :
    c.current = some '/' := by
  obtain ⟨⟨r, hr⟩, -⟩ := Cursor.startsWith_iff.1 h
  rw [Cursor.current, ← hr]
  rcases Kind.lookedFor?_eq_some_iff.1 hk with ⟨-, rfl⟩ | ⟨-, rfl⟩ <;> rfl

/-- Not both of them are found at a cursor. -/
theorem not_startsWith_manySegments (h : c.startsWith anySegmentText = true) :
    ¬c.startsWith Wildcard.manySegments.text = true := by
  intro h'
  obtain ⟨⟨r, hr⟩, -⟩ := Cursor.startsWith_iff.1 h
  obtain ⟨⟨r', hr'⟩, -⟩ := Cursor.startsWith_iff.1 h'
  have heq : anySegmentText ++ r = Wildcard.manySegments.text ++ r' := hr.trans hr'.symm
  simp [anySegmentText, Wildcard.text] at heq

/-- A kind that is looked for is found where its text is. -/
theorem classify_eq_iff_startsWith (hk : k.lookedFor? = some w) :
    classify c = k ↔ c.startsWith w = true := by
  by_cases hs : c.current = some '/'
  · rw [classify_of_separator hs]
    rcases Kind.lookedFor?_eq_some_iff.1 hk with ⟨rfl, rfl⟩ | ⟨rfl, rfl⟩
    · by_cases hm : c.startsWith Wildcard.manySegments.text = true
      · simp [hm]
      · rw [if_neg hm]
        split <;> simp [hm]
    · by_cases ha : c.startsWith anySegmentText = true
      · simp [ha, not_startsWith_manySegments ha]
      · rw [if_neg ha]
        split <;> simp [ha]
  · constructor
    · rintro rfl
      rw [lookedFor?_classify hs] at hk
      cases hk
    · intro h
      exact absurd (current_of_startsWith hk h) hs

/-- A kind that is looked for has a token to be read where its text can be read. -/
theorem isSome_read?_iff_matched (hk : k.lookedFor? = some w) :
    (read? k c).isSome = true ↔ (Matcher.sequence w c).matched = true := by
  have hread : (read? k c).isSome = (Matcher.consume w c).isSome := by
    rcases Kind.lookedFor?_eq_some_iff.1 hk with ⟨rfl, rfl⟩ | ⟨rfl, rfl⟩
    · rw [read?, readWildcard?, Option.isSome_map, Option.isSome_map]
    · rw [read?, readAnySegment?, Option.isSome_map, Option.isSome_map]
  rw [hread, Matcher.sequence]
  cases Matcher.consume w c <;> rfl

/-- **A kind that is looked for is found exactly where its token can be read.** -/
theorem classify_eq_iff_isSome_read? (hk : k.lookedFor? = some w) :
    classify c = k ↔ (read? k c).isSome = true := by
  have hw : w ≠ [] := by
    rcases Kind.lookedFor?_eq_some_iff.1 hk with ⟨-, rfl⟩ | ⟨-, rfl⟩ <;> exact List.cons_ne_nil _ _
  rw [classify_eq_iff_startsWith hk, isSome_read?_iff_matched hk,
    Matcher.matched_eq_startsWith_iff.2 fun h => absurd h hw]

end Token

end IgnoreRules
