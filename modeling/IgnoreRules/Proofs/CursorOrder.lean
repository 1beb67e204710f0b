/-
# The order of cursors

A cursor is at most another, `c ≤ d`, when reading some characters from `c` leads to `d`.  Such
cursors stand in the same text, and what is left to read at `d` ends what is left to read at `c`.
Behind a fixed cursor, a cursor is known by what it leaves to read.

* `text_eq_of_le`, `position_le_of_le`, `rest_suffix_of_le` : what moving on keeps and changes;
* `between_append_rest` : what was read and what is left make up what was left before;
* `eq_of_le_of_rest_eq` : a cursor behind `c` is determined by its rest.
-/
import IgnoreRules.Cursor

namespace IgnoreRules.Cursor

/-! ## Moving in steps -/

/-- Going on by a sum of steps is going on twice. -/
theorem advanceBy_add (m n : Nat) (c : Cursor) :
    advanceBy (m + n) c = advanceBy n (advanceBy m c) := by
  induction m generalizing c with
  | zero => rw [Nat.zero_add, advanceBy_zero]
  | succ m ih => rw [Nat.succ_add, advanceBy, ih, advanceBy]

/-! ## The order -/

/-- `c ≤ d` says that reading some characters from `c` leads to `d`. -/
instance : LE Cursor := ⟨fun c d => ∃ n, d = advanceBy n c⟩

theorem le_advanceBy (n : Nat) (c : Cursor) : c ≤ advanceBy n c := ⟨n, rfl⟩

theorem le_advance (c : Cursor) : c ≤ c.advance := ⟨1, rfl⟩

theorem le_refl (c : Cursor) : c ≤ c := ⟨0, rfl⟩

theorem le_trans {c d e : Cursor} (h : c ≤ d) (h' : d ≤ e) : c ≤ e := by
  obtain ⟨m, rfl⟩ := h
  obtain ⟨n, rfl⟩ := h'
  exact ⟨m + n, (advanceBy_add m n c).symm⟩

/-- Moving on stays in the text. -/
theorem text_eq_of_le {c d : Cursor} (h : c ≤ d) : d.text = c.text := by
  obtain ⟨n, rfl⟩ := h
  exact text_advanceBy n c

/-- Moving on never goes back. -/
theorem position_le_of_le {c d : Cursor} (h : c ≤ d) : c.position ≤ d.position := by
  obtain ⟨n, rfl⟩ := h
  rw [position_advanceBy]
  exact Nat.le_add_right _ _

/-- What is left behind ends what was left before. -/
theorem rest_suffix_of_le {c d : Cursor} (h : c ≤ d) : d.rest <:+ c.rest := by
  obtain ⟨n, rfl⟩ := h
  rw [rest_advanceBy]
  exact List.drop_suffix n c.rest

/-- The position grows by as much as the rest shrinks. -/
theorem position_add_length_of_le {c d : Cursor} (h : c ≤ d) :
    d.position + d.rest.length = c.position + c.rest.length := by
  obtain ⟨n, rfl⟩ := h
  rw [position_advanceBy, rest_advanceBy, List.length_drop]
  omega

/-- Moving on never passes the end of the text, unless the cursor stood there already. -/
theorem position_le_max_of_le {c d : Cursor} (h : c ≤ d) :
    d.position ≤ max c.position c.text.length := by
  have hp := position_add_length_of_le h
  rw [c.rest_eq, List.length_drop] at hp
  omega

/-- A cursor at the end stands behind its text, at the place where it began or where the text
ends. -/
theorem eq_seek_of_le_of_rest_nil {c d : Cursor} (h : c ≤ d) (hd : d.rest = []) :
    d = seek c.text (max c.position c.text.length) := by
  have ht : d.text = c.text := text_eq_of_le h
  refine eq_of_text_position ht ?_
  have hp := position_add_length_of_le h
  rw [hd, List.length_nil, c.rest_eq, List.length_drop] at hp
  show d.position = max c.position c.text.length
  omega

/-- The characters between two cursors of a text. -/
def between (c d : Cursor) : List Char := c.rest.take (d.position - c.position)

/-- What is read between two cursors stands in front of what is left. -/
theorem between_append_rest {c d : Cursor} (h : c ≤ d) : between c d ++ d.rest = c.rest := by
  obtain ⟨n, rfl⟩ := h
  rw [between, position_advanceBy, rest_advanceBy, Nat.add_sub_cancel_left]
  rcases Nat.le_total n c.rest.length with hn | hn
  · rw [Nat.min_eq_left hn, List.take_append_drop]
  · rw [Nat.min_eq_right hn, List.drop_eq_nil_of_le hn, List.take_length, List.append_nil]

/-- Behind `c`, a cursor is known by what it leaves to read. -/
theorem eq_of_le_of_rest_eq {c d e : Cursor} (hd : c ≤ d) (he : c ≤ e) (h : d.rest = e.rest) :
    d = e := by
  refine eq_of_text_position ?_ ?_
  · rw [text_eq_of_le hd, text_eq_of_le he]
  · have hpd := position_add_length_of_le hd
    have hpe := position_add_length_of_le he
    rw [h] at hpd
    omega

/-- Only one cursor behind `c` stands at the end. -/
theorem eq_iff_of_rest_nil {c d e : Cursor} (he : c ≤ e) (hr : e.rest = []) :
    e = d ↔ c ≤ d ∧ d.rest = [] := by
  constructor
  · rintro rfl
    exact ⟨he, hr⟩
  · rintro ⟨hd, hd'⟩
    exact eq_of_le_of_rest_eq he hd (hr.trans hd'.symm)

/-- Whatever ends what is left to read is left behind some cursor ahead. -/
theorem exists_le_of_suffix {c : Cursor} {r : List Char} (h : r <:+ c.rest) :
    ∃ d, c ≤ d ∧ d.rest = r := by
  obtain ⟨w, hw⟩ := h
  exact ⟨advanceBy w.length c, le_advanceBy _ c, by rw [rest_advanceBy, ← hw, List.drop_left]⟩

end IgnoreRules.Cursor
