/-
# Integers as texts

An integer is written with its decimal digits, behind a minus if it is negative.  In such a text
stands no letter, blank or underscore, so there is nothing to be prepared before it is read.  What
is read is the integer, unless it has more digits than are read at all.

* `Number.digitsValue_digits` : the digits of a number have its value;
* `Number.int?_intText` : what is written is read;
* `Environment.valueOf_intText` : a variable with such a text stands for the integer.
-/
import IgnoreRules.Proofs.PlainValues

namespace IgnoreRules

/-! ## Digits -/

namespace Number

theorem toNat_digit {d : Nat} (h : d < 10) : (digit d).toNat - '0'.toNat = d := by
  revert d
  decide

theorem isDigit_digit {d : Nat} (h : d < 10) : (digit d).isDigit = true := by
  revert d
  decide

theorem digits_ne_nil (n : Nat) : digits n ≠ [] := by
  by_cases h : n < 10
  · rw [digits_of_lt h]
    exact List.cons_ne_nil _ _
  · rw [digits_of_not_lt h]
    exact List.concat_ne_nil _ _

/-- What stands among the digits of a number is a digit. -/
theorem exists_digit_of_mem_digits {n : Nat} {c : Char} (hc : c ∈ digits n) :
    ∃ d < 10, c = digit d := by
  induction n using Nat.strongRecOn with
  | ind n ih =>
    by_cases h : n < 10
    · rw [digits_of_lt h, List.mem_singleton] at hc
      exact ⟨n, h, hc⟩
    · rw [digits_of_not_lt h, List.mem_append, List.mem_singleton] at hc
      rcases hc with hc | hc
      · exact ih (n / 10) (by omega) hc
      · exact ⟨n % 10, Nat.mod_lt _ (by decide), hc⟩

/-- A number is written with digits only. -/
theorem isDigit_of_mem_digits {n : Nat} {c : Char} (hc : c ∈ digits n) : c.isDigit = true := by
  obtain ⟨d, hd, rfl⟩ := exists_digit_of_mem_digits hc
  exact isDigit_digit hd

/-- **The digits of a number have its value.** -/
theorem digitsValue_digits (n : Nat) : digitsValue (digits n) = n := by
  induction n using Nat.strongRecOn with
  | ind n ih =>
    by_cases h : n < 10
    · rw [digits_of_lt h, ← List.nil_append [digit n], digitsValue_concat, toNat_digit h]
      exact Nat.zero_add n
    · rw [digits_of_not_lt h, digitsValue_concat, ih (n / 10) (by omega),
        toNat_digit (Nat.mod_lt _ (by decide))]
      omega

/-! ## Signs and digits -/

/-- The character may stand in the text of an integer. -/
def IsSignOrDigit (c : Char) : Prop := c = '-' ∨ ∃ d < 10, c = digit d

/-- An integer is written with a sign and digits only. -/
theorem isSignOrDigit_of_mem {n : Int} {c : Char} (hc : c ∈ intText n) : IsSignOrDigit c := by
  unfold intText at hc
  split at hc
  · rcases List.mem_cons.1 hc with rfl | hc
    · exact Or.inl rfl
    · exact Or.inr (exists_digit_of_mem_digits hc)
  · exact Or.inr (exists_digit_of_mem_digits hc)

/-- What holds of the minus and of all digits holds of the character. -/
@[elab_as_elim]
theorem IsSignOrDigit.elim {P : Char → Prop} {c : Char} (h : IsSignOrDigit c) (hminus : P '-')
    (hdigit : ∀ d < 10, P (digit d)) : P c := by
  rcases h with rfl | ⟨d, hd, rfl⟩
  · exact hminus
  · exact hdigit d hd

theorem IsSignOrDigit.toNat_lt {c : Char} (h : IsSignOrDigit c) : c.toNat < 0x80 :=
  h.elim (by decide) (by decide)

theorem IsSignOrDigit.isBlank {c : Char} (h : IsSignOrDigit c) : Text.isBlank c = false :=
  h.elim (by decide) (by decide)

theorem IsSignOrDigit.small {c : Char} (h : IsSignOrDigit c) : Text.small c = [c] :=
  h.elim (by decide) (by decide)

theorem IsSignOrDigit.isLower {c : Char} (h : IsSignOrDigit c) : c.isLower = false :=
  h.elim (by decide) (by decide)

end Number

namespace Text

variable {s : List Char}

theorem dropWhile_isBlank (h : ∀ c ∈ s, isBlank c = false) : s.dropWhile isBlank = s := by
  cases s with
  | nil => rfl
  | cons c s => rw [List.dropWhile_cons_of_neg (by rw [h c List.mem_cons_self]; decide)]

/-- Where no blank stands, none is taken away. -/
theorem trim_eq_self (h : ∀ c ∈ s, isBlank c = false) : trim s = s := by
  unfold trim
  rw [dropWhile_isBlank h, dropWhile_isBlank fun c hc => h c (List.mem_reverse.1 hc),
    List.reverse_reverse]

/-- Signs and digits have no letter case. -/
theorem lowerAfter_eq_self (h : ∀ c ∈ s, Number.IsSignOrDigit c) (before : List Char) :
    lowerAfter before s = s := by
  induction s generalizing before with
  | nil => rfl
  | cons c s ih =>
    obtain ⟨hc, hs⟩ := List.forall_mem_cons.1 h
    have hne : c ≠ 'Σ' := by
      rintro rfl
      exact absurd hc.toNat_lt (by decide)
    rw [lowerAfter, if_neg hne, hc.small, ih hs]
    rfl

end Text

/-! ## Reading what is written -/

namespace Number

/-- An integer is read as it is written, without any preparation. -/
theorem prepare_intText (n : Int) : prepare (intText n) = intText n := by
  have hplain : ∀ c ∈ intText n, plainDigit c = c :=
    fun c hc => if_pos (isSignOrDigit_of_mem hc).toNat_lt
  unfold prepare
  rw [Text.trim_eq_self fun c hc => (isSignOrDigit_of_mem hc).isBlank]
  exact (List.map_congr_left hplain).trans (List.map_id _)

/-- In front of digits stands no sign. -/
theorem splitSign_digits (n : Nat) : splitSign (digits n) = (false, digits n) := by
  unfold splitSign
  split
  · next r h =>
    have hminus : '-' ∈ digits n := h ▸ List.mem_cons_self
    exact absurd (isDigit_of_mem_digits hminus) (by decide)
  · next r h =>
    have hplus : '+' ∈ digits n := h ▸ List.mem_cons_self
    exact absurd (isDigit_of_mem_digits hplus) (by decide)
  · rfl

/-- Of a written integer, the sign and the digits are read back. -/
theorem splitSign_intText (n : Int) :
    splitSign (intText n) = (decide (n < 0), digits n.natAbs) := by
  unfold intText
  by_cases h : n < 0
  · rw [if_pos h, decide_eq_true h]
    rfl
  · rw [if_neg h, decide_eq_false h, splitSign_digits]

/-- Where no underscore stands, none is removed. -/
theorem dropUnderscores_of_isDigit {ds : List Char} (h : ∀ c ∈ ds, c.isDigit = true) {before : Char}
    (hbefore : before ≠ '_') : dropUnderscores before ds = some ds := by
  induction ds generalizing before with
  | nil => rw [dropUnderscores, if_neg hbefore]
  | cons c ds ih =>
    obtain ⟨hc, hds⟩ := List.forall_mem_cons.1 h
    have hne : c ≠ '_' := by
      rintro rfl
      exact absurd hc (by decide)
    rw [dropUnderscores, if_neg (by simp [hbefore]), ih hds hne]
    · rfl
    · exact hne

/-- **What is written is read**, if it has no more digits than are read. -/
theorem int?_intText {n : Int} (h : (digits n.natAbs).length ≤ maxDigits) :
    int? (intText n) = some n := by
  have hdigits : ∀ c ∈ digits n.natAbs, c.isDigit = true := fun c hc => isDigit_of_mem_digits hc
  have hread : (if decide (n < 0) = true then -(n.natAbs : Int) else (n.natAbs : Int)) = n := by
    by_cases hneg : n < 0
    · rw [if_pos (decide_eq_true hneg)]
      omega
    · rw [if_neg (by simpa using hneg)]
      omega
  unfold int?
  rw [prepare_intText, splitSign_intText]
  dsimp only
  rw [dropUnderscores_of_isDigit hdigits (by decide)]
  dsimp only
  rw [if_neg, digitsValue_digits, hread]
  simp [digits_ne_nil, List.all_eq_true.2 hdigits, h]

end Number

namespace Environment

/-- **A variable with the text of an integer stands for that integer**, and for no truth value,
floating-point number or text. -/
theorem valueOf_intText {n : Int} (h : (Number.digits n.natAbs).length ≤ Number.maxDigits) :
    valueOf (String.ofList (Number.intText n)) = .int n := by
  have hsmall : Text.lower (Number.intText n) = Number.intText n :=
    Text.lowerAfter_eq_self (fun c hc => Number.isSignOrDigit_of_mem hc) []
  -- the names of truth values have small letters
  have hword : ∀ (word : String) (c : Char), c ∈ word.toList → c.isLower = true →
      String.ofList (Number.intText n) ≠ word := by
    rintro word c hc hlower rfl
    rw [String.toList_ofList] at hc
    exact absurd hlower (by rw [(Number.isSignOrDigit_of_mem hc).isLower]; decide)
  have htrue := hword "true" 't' (by decide) (by decide)
  have hyes := hword "yes" 'y' (by decide) (by decide)
  have hfalse := hword "false" 'f' (by decide) (by decide)
  have hno := hword "no" 'n' (by decide) (by decide)
  unfold valueOf
  dsimp only
  rw [String.toList_ofList, hsmall, if_neg (by simp [htrue, hyes]), if_neg (by simp [hfalse, hno]),
    Number.int?_intText h]

end Environment

end IgnoreRules
