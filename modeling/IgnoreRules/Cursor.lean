/-
# Cursors over a text

A cursor is a place in a text: patterns and paths are both read through one.  Moving a cursor
makes a new cursor, so an old one is a checkpoint that can be taken up again at no cost.

* `Cursor.seek text n` stands after `n` characters, possibly past the end of the text;
* `Cursor.rest` is what is left to read, and `rest_eq` ties it to the position;
* `Cursor.advance` reads one character and stands still at the end.
-/

namespace IgnoreRules

/-- A place in a text.  The characters that are left to read are kept beside the position, so that
reading one costs the same everywhere in the text. -/
structure Cursor where
  /-- The whole text. -/
  text : List Char
  /-- The number of characters before the cursor, which may exceed the length of the text. -/
  position : Nat
  /-- The characters not read yet. -/
  rest : List Char
  /-- What is left is the text without the characters before the cursor. -/
  rest_eq : rest = text.drop position

namespace Cursor

/-- Two cursors at the same position of the same text are the same cursor. -/
theorem eq_of_text_position {a b : Cursor} (ht : a.text = b.text)
    (hp : a.position = b.position) : a = b := by
  obtain ⟨t, p, r, h⟩ := a
  obtain ⟨t', p', r', h'⟩ := b
  obtain rfl : t = t' := ht
  obtain rfl : p = p' := hp
  obtain rfl : r = r' := h.trans h'.symm
  rfl

instance : DecidableEq Cursor := fun a b =>
  decidable_of_iff (a.text = b.text ∧ a.position = b.position)
    ⟨fun h => eq_of_text_position h.1 h.2, fun h => h ▸ ⟨rfl, rfl⟩⟩

/-! ## Placing a cursor -/

/-- The cursor after the first `position` characters of a text. -/
def seek (text : List Char) (position : Nat) : Cursor := ⟨text, position, text.drop position, rfl⟩

/-- The cursor in front of a text. -/
def start (text : List Char) : Cursor := seek text 0

@[simp] theorem rest_start (text : List Char) : (start text).rest = text := rfl

@[simp] theorem position_start (text : List Char) : (start text).position = 0 := rfl

@[simp] theorem text_start (text : List Char) : (start text).text = text := rfl

/-! ## Looking -/

/-- The character at the cursor, if one is left. -/
def current (c : Cursor) : Option Char := c.rest.head?

/-- Nothing is left to read. -/
def atEnd (c : Cursor) : Bool := c.rest.isEmpty

/-- The first character of the whole text. -/
def first (c : Cursor) : Option Char := c.text.head?

/-- The last character of the whole text. -/
def last (c : Cursor) : Option Char := c.text.getLast?

/-- What is left begins with `w`.  Past the end of the text not even the empty text is found. -/
def startsWith (c : Cursor) (w : List Char) : Bool :=
  w.isPrefixOf c.rest && (!w.isEmpty || c.position ≤ c.text.length)

theorem atEnd_iff (c : Cursor) : c.atEnd = true ↔ c.rest = [] := List.isEmpty_iff

/-- A cursor is at the end exactly when its position is no smaller than the length of the text. -/
theorem atEnd_iff_length_le (c : Cursor) : c.atEnd = true ↔ c.text.length ≤ c.position := by
  rw [atEnd_iff, c.rest_eq, List.drop_eq_nil_iff]

/-! ## Moving -/

/-- Reads one character; a cursor at the end stays where it is. -/
def advance (c : Cursor) : Cursor :=
  match h : c.rest with
  | [] => c
  | _ :: r => ⟨c.text, c.position + 1, r, by
      rw [← List.tail_drop, ← c.rest_eq, h, List.tail_cons]⟩

@[simp] theorem text_advance (c : Cursor) : c.advance.text = c.text := by
  unfold advance; split <;> rfl

@[simp] theorem rest_advance (c : Cursor) : c.advance.rest = c.rest.tail := by
  unfold advance
  split
  · next h => simp [h]
  · next h => simp [h]

/-- The position goes on by one, except at the end. -/
theorem position_advance (c : Cursor) :
    c.advance.position = if c.atEnd then c.position else c.position + 1 := by
  unfold advance atEnd
  split
  · next h => simp [h]
  · next h => simp [h]

/-- A cursor at the end does not move. -/
theorem advance_of_rest_nil {c : Cursor} (h : c.rest = []) : c.advance = c :=
  eq_of_text_position (text_advance c) (by simp [position_advance, atEnd, h])

/-- Reads `n` characters, or all there are. -/
def advanceBy : Nat → Cursor → Cursor
  | 0, c => c
  | n + 1, c => advanceBy n c.advance

@[simp] theorem advanceBy_zero (c : Cursor) : advanceBy 0 c = c := rfl

@[simp] theorem text_advanceBy (n : Nat) (c : Cursor) : (advanceBy n c).text = c.text := by
  induction n generalizing c with
  | zero => rfl
  | succ n ih => simp [advanceBy, ih]

@[simp] theorem rest_advanceBy (n : Nat) (c : Cursor) :
    (advanceBy n c).rest = c.rest.drop n := by
  induction n generalizing c with
  | zero => rfl
  | succ n ih => simp [advanceBy, ih]

/-- The position grows by the number of characters that were there to read. -/
theorem position_advanceBy (n : Nat) (c : Cursor) :
    (advanceBy n c).position = c.position + min n c.rest.length := by
  induction n generalizing c with
  | zero => simp
  | succ n ih =>
      rw [advanceBy, ih, position_advance, rest_advance]
      cases h : c.rest with
      | nil => simp [atEnd, h]
      | cons x r => simp [atEnd, h]; omega

end Cursor

end IgnoreRules
