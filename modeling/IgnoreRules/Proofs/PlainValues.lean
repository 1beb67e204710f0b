/-
# Plain values

A value is plain if it holds no list, all its keys are texts, and every integer in it can be shown.
Writing plain values keeps mappings plain, and the check of a plain value never comes to a key that
it cannot list or to a fault that it cannot put into words.

* `Number.isShowable_of_int?` : integers that are read can be shown;
* `Number.isShowable_of_le` : numbers that are not enormous can be shown;
* `Value.Plain`, `Entries.Plain.putPath` : plain values, and how they are made;
* `Value.Plain.isShowable`, `Value.Plain.not_unlistable` : what the check can do with them.
-/
import IgnoreRules.Proofs.SchemaRefusals
import Mathlib.Data.List.Induction

namespace IgnoreRules

/-! ## Integers that are read -/

namespace Number

theorem digitsOnto_of_lt {n : Nat} (h : n < 10) (tail : List Char) :
    digitsOnto n tail = digit n :: tail := by
  rw [digitsOnto, if_pos h]

theorem digitsOnto_of_not_lt {n : Nat} (h : ¬n < 10) (tail : List Char) :
    digitsOnto n tail = digitsOnto (n / 10) (digit (n % 10) :: tail) := by
  rw [digitsOnto, if_neg h]

/-- What stands behind the digits does not matter for them. -/
theorem digitsOnto_append (n : Nat) (tail more : List Char) :
    digitsOnto n (tail ++ more) = digitsOnto n tail ++ more := by
  induction n, tail using digitsOnto.induct with
  | case1 n tail hn =>
    rw [digitsOnto_of_lt hn, digitsOnto_of_lt hn]
    rfl
  | case2 n tail hn ih =>
    rw [digitsOnto_of_not_lt hn, digitsOnto_of_not_lt hn]
    exact ih

theorem digits_of_lt {n : Nat} (h : n < 10) : digits n = [digit n] := digitsOnto_of_lt h []

/-- The last digit stands behind those of the number without it. -/
theorem digits_of_not_lt {n : Nat} (h : ¬n < 10) :
    digits n = digits (n / 10) ++ [digit (n % 10)] := by
  unfold digits
  rw [digitsOnto_of_not_lt h, ← digitsOnto_append, List.nil_append]

theorem length_digits_of_lt {n : Nat} (h : n < 10) : (digits n).length = 1 := by
  rw [digits_of_lt h]
  rfl

/-- With one digit more behind it, a number has at most one digit more. -/
theorem length_digits_le (n : Nat) {d : Nat} (hd : d < 10) :
    (digits (10 * n + d)).length ≤ (digits n).length + 1 := by
  by_cases h : 10 * n + d < 10
  · rw [length_digits_of_lt h]
    exact Nat.le_add_left 1 _
  · have hdiv : (10 * n + d) / 10 = n := by omega
    have hlength : (digits (10 * n + d)).length = (digits n).length + 1 := by
      rw [digits_of_not_lt h, hdiv, List.length_append, List.length_singleton]
    exact Nat.le_of_eq hlength

/-- A smaller number has no more digits. -/
theorem length_digits_mono {m n : Nat} (h : m ≤ n) : (digits m).length ≤ (digits n).length := by
  induction n using Nat.strongRecOn generalizing m with
  | ind n ih =>
    by_cases hn : n < 10
    · have hm := length_digits_of_lt (Nat.lt_of_le_of_lt h hn)
      exact Nat.le_of_eq (hm.trans (length_digits_of_lt hn).symm)
    · rw [digits_of_not_lt hn, List.length_append, List.length_singleton]
      by_cases hm : m < 10
      · rw [length_digits_of_lt hm]
        exact Nat.le_add_left 1 _
      · rw [digits_of_not_lt hm, List.length_append, List.length_singleton]
        exact Nat.succ_le_succ (ih (n / 10) (by omega) (Nat.div_le_div_right h))

/-- A number below one that can be shown can be shown. -/
theorem isShowable_of_le {m n : Nat} (h : m ≤ n) (hn : (digits n).length ≤ maxDigits) :
    (Scalar.int m).isShowable = true :=
  decide_eq_true (Nat.le_trans (length_digits_mono h) hn)

theorem toNat_sub_toNat_zero_lt {c : Char} (h : c.isDigit = true) :
    c.toNat - '0'.toNat < 10 := by
  unfold Char.isDigit at h
  have hle : c.val ≤ 57 := by simpa using (Bool.and_eq_true_iff.1 h).2
  have hnat : c.val.toNat ≤ 57 := UInt32.le_iff_toNat_le.1 hle
  show c.val.toNat - 48 < 10
  omega

/-- One more digit makes a number ten times larger, and adds its own value. -/
theorem digitsValue_concat (ds : List Char) (c : Char) :
    digitsValue (ds ++ [c]) = 10 * digitsValue ds + (c.toNat - '0'.toNat) := by
  unfold digitsValue
  rw [List.foldl_append]
  rfl

/-- The value of a text of digits has no more digits than the text. -/
theorem length_digits_digitsValue_le {ds : List Char} (h : ds.all Char.isDigit = true)
    (hne : ds ≠ []) : (digits (digitsValue ds)).length ≤ ds.length := by
  induction ds using List.reverseRecOn with
  | nil => exact absurd rfl hne
  | append_singleton ds c ih =>
    rw [List.all_append, Bool.and_eq_true, List.all_cons, List.all_nil, Bool.and_true] at h
    have hc := toNat_sub_toNat_zero_lt h.2
    rw [digitsValue_concat, List.length_append, List.length_singleton]
    by_cases hds : ds = []
    · have hzero : digitsValue ds = 0 := by rw [hds]; rfl
      rw [length_digits_of_lt (by omega)]
      exact Nat.le_add_left 1 _
    · exact Nat.le_trans (length_digits_le _ hc) (Nat.succ_le_succ (ih h.1 hds))

/-- **Integers that are read can be shown**: both are kept to the same number of digits. -/
theorem isShowable_of_int? {s : List Char} {n : Int} (h : int? s = some n) :
    (Scalar.int n).isShowable = true := by
  unfold int? at h
  dsimp only at h
  split at h
  · cases h
  · next ds _ =>
    split at h
    · cases h
    · next hds =>
      rw [Bool.or_eq_true, Bool.or_eq_true, not_or, not_or, List.isEmpty_iff, Bool.not_eq_true',
        Bool.not_eq_false, decide_eq_true_eq, Nat.not_lt] at hds
      obtain ⟨⟨hne, hall⟩, hlength⟩ := hds
      have habs : n.natAbs = digitsValue ds := by
        split at h
        · cases h
          exact Int.natAbs_neg _
        · cases h
          rfl
      show decide ((digits n.natAbs).length ≤ maxDigits) = true
      rw [habs, decide_eq_true_eq]
      exact Nat.le_trans (length_digits_digitsValue_le hall hne) hlength

end Number

/-! ## Plain values -/

mutual

/-- The value can be shown, holds no list, and all its keys are texts. -/
def Value.Plain : Value → Prop
  | .scalar s => s.isShowable = true
  | .list _ => False
  | .mapping es => Entries.Plain es

/-- The same for entries. -/
def Entries.Plain : Entries → Prop
  | [] => True
  | (k, v) :: es => (∃ name, k = .text name) ∧ v.Plain ∧ Entries.Plain es

end

namespace Entries

variable {es fs : Entries} {v : Value} {path : List String}

theorem plain_nil : Plain [] := trivial

/-- A mapping is plain if its keys are texts and its values are plain. -/
theorem plain_iff :
    es.Plain ↔ ∀ e ∈ es, (∃ name, e.1 = .text name) ∧ e.2.Plain := by
  induction es with
  | nil => simp [Plain]
  | cons e es ih =>
    rw [List.forall_mem_cons, ← ih]
    exact and_assoc.symm

/-- What is found in a plain mapping is plain. -/
theorem Plain.get? {key : Scalar} (h : es.Plain) (hv : es.get? key = some v) : v.Plain := by
  obtain ⟨k, hk⟩ := mem_of_get? hv
  exact (plain_iff.1 h _ hk).2

/-- A plain value under a name keeps a mapping plain. -/
theorem Plain.put (h : es.Plain) (hv : v.Plain) (p : String) : (es.put (.text p) v).Plain := by
  rw [plain_iff] at h ⊢
  intro e he
  constructor
  · rcases mem_map_fst_put (List.mem_map_of_mem he) with hk | hk
    · exact ⟨p, hk⟩
    · obtain ⟨d, hd, hde⟩ := List.mem_map.1 hk
      rw [← hde]
      exact (h d hd).1
  · rcases snd_of_mem_put he with hev | he
    · rw [hev]
      exact hv
    · exact (h e he).2

/-- Writing a plain value at the end of a path keeps entries plain. -/
theorem Plain.putPath (h : es.Plain) (hv : v.Plain) (hput : es.putPath v path = .ok fs) :
    fs.Plain :=
  putPath_induction (P := Value.Plain) plain_nil (fun hes hfound => Plain.get? hes hfound)
    (fun hes hw => Plain.put hes hw _) hv h hput

theorem Plain.exists_text {k : Scalar} (h : es.Plain) (hk : k ∈ es.map Prod.fst) :
    ∃ name, k = .text name := by
  obtain ⟨e, he, rfl⟩ := List.mem_map.1 hk
  exact (plain_iff.1 h e he).1

/-- A plain mapping has no strange key. -/
theorem Plain.not_hasStrangeKey (h : es.Plain) : ¬Schema.HasStrangeKey es := by
  rintro ⟨k, hk, hstrange⟩
  obtain ⟨name, hname⟩ := h.exists_text hk
  exact hstrange name hname

end Entries

mutual

/-- **Plain values can be shown**, by recursion on the value. -/
theorem Value.Plain.isShowable : ∀ {v : Value}, v.Plain → v.isShowable = true
  | .scalar _, h => h
  | .list _, h => False.elim h
  | .mapping _, h => Entries.Plain.showableEntries h

theorem Entries.Plain.showableEntries : ∀ {es : Entries}, es.Plain →
    Value.showableEntries es = true
  | [], _ => rfl
  | (_, _) :: _, ⟨⟨_, hk⟩, hv, hes⟩ => by
    rw [Value.showableEntries, hk, hv.isShowable, Entries.Plain.showableEntries hes]
    rfl

end

/-- **The keys of plain values can be listed**: the check comes to no key that is no text. -/
theorem Value.Plain.not_unlistable {v : Value} (h : v.Plain) : ¬Schema.Unlistable v := by
  -- in no section that stands in a plain mapping
  have hsection : ∀ {es : Entries} {key : String} {w : Value}, es.Plain →
      es.get? (.text key) = some w → ¬Schema.IsStrange w := by
    rintro es key w hes hw ⟨sub, rfl, hstrange⟩
    have hsub : Entries.Plain sub := hes.get? hw
    exact hsub.not_hasStrangeKey hstrange
  rintro ⟨es, root, rfl, hroot, hhidden⟩
  have hplain : Entries.Plain root := Entries.Plain.get? h hroot
  rcases hhidden with hstrange | ⟨-, ⟨w, hw, hstrange⟩ | ⟨-, w, hw, hstrange⟩⟩
  · exact hplain.not_hasStrangeKey hstrange
  · exact hsection hplain hw hstrange
  · exact hsection hplain hw hstrange

end IgnoreRules
