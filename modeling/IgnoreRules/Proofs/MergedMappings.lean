/-
# Mappings laid over one another

What stands at the end of a path in two mappings, one laid over the other, is decided by the upper
one, unless that says nothing about the path or both hold a mapping there.

* `Entries.get?_put_text`, `Entries.get?_merge` : what stands under a key after writing and merging;
* `Value.walk_over` : what stands at the end of a path after merging;
* `Entries.putPath_eq_merge` : writing a value at the end of a path is merging a mapping that holds
  nothing else.
-/
import IgnoreRules.Value.WellFormed

namespace IgnoreRules

/-! ## Text keys -/

/-- No other key is the same as a text. -/
theorem Scalar.same_text_iff {k : Scalar} {p : String} : k.same (.text p) = true ↔ k = .text p := by
  cases k <;> simp [same, whole?]

/-- Only a text counts as the same key as this text. -/
theorem Scalar.text_same_iff {k : Scalar} {p : String} :
    (Scalar.text p).same k = true ↔ k = .text p := by
  cases k <;> simp [same, whole?, eq_comm]

namespace Entries

variable {es bs : Entries} {k : Scalar} {v : Value} {p : String}

/-! ## Single entries -/

/-- Under a text that is no key nothing is found. -/
theorem get?_text_eq_none (h : ∀ e ∈ es, e.1 ≠ .text p) : es.get? (.text p) = none := by
  induction es with
  | nil => rfl
  | cons e es ih =>
    obtain ⟨k, w⟩ := e
    have hk : ¬ k.same (.text p) = true :=
      fun hs => h (k, w) List.mem_cons_self (Scalar.same_text_iff.1 hs)
    rw [get?_cons, if_neg hk]
    exact ih fun e he => h e (List.mem_cons_of_mem _ he)

/-- **Writing one key changes what stands under it**, and under no other text. -/
theorem get?_put_text (es : Entries) (k : Scalar) (v : Value) (p : String) :
    (es.put k v).get? (.text p) = if k = .text p then some v else es.get? (.text p) := by
  induction es with
  | nil =>
    rw [put_nil, get?_cons]
    simp only [Scalar.same_text_iff]
  | cons e es ih =>
    obtain ⟨k', w⟩ := e
    rw [put_cons]
    by_cases hk : k'.same k = true
    · -- the key that is there is the text exactly if the written one is
      have hsame : k' = .text p ↔ k = .text p := by
        constructor
        · rintro rfl
          exact Scalar.text_same_iff.1 hk
        · rintro rfl
          exact Scalar.same_text_iff.1 hk
      rw [if_pos hk, get?_cons, get?_cons]
      simp only [Scalar.same_text_iff, hsame]
      split <;> rfl
    · -- another key comes first; if it is the text, the written one is not
      rw [if_neg hk, get?_cons, get?_cons, ih]
      by_cases hk' : k' = .text p
      · have hne : k ≠ .text p := by
          rintro rfl
          exact hk (Scalar.same_text_iff.2 hk')
        rw [if_pos (Scalar.same_text_iff.2 hk'), if_neg hne, if_pos (Scalar.same_text_iff.2 hk')]
      · rw [if_neg (mt Scalar.same_text_iff.1 hk'), if_neg (mt Scalar.same_text_iff.1 hk')]

/-! ## Merging -/

@[simp] theorem merge_nil (bs : Entries) : merge bs [] = bs := rfl

@[simp] theorem merge_cons (bs es : Entries) (k : Scalar) (v : Value) :
    merge bs ((k, v) :: es) = merge (bs.put k (v.over (bs.get? k))) es := rfl

/-- **What stands under a text after merging** is what the upper mapping holds there, laid over
what the lower one holds. -/
theorem get?_merge (h : es.WellFormed) (bs : Entries) (p : String) :
    (merge bs es).get? (.text p)
      = match es.get? (.text p) with
        | none => bs.get? (.text p)
        | some v => some (v.over (bs.get? (.text p))) := by
  induction es generalizing bs with
  | nil => rfl
  | cons e es ih =>
    obtain ⟨k, v⟩ := e
    obtain ⟨hk, -, hes⟩ := h
    rw [merge_cons, ih hes, get?_put_text, get?_cons]
    by_cases hp : k = .text p
    · -- the text is no key of the other entries
      have hrest : get? (.text p) es = none := by
        apply get?_text_eq_none
        intro e he hep
        have hne := hk e he
        rw [hp, hep, Scalar.same_text, decide_eq_false_iff_not] at hne
        exact hne rfl
      rw [hrest, if_pos hp, if_pos (Scalar.same_text_iff.2 hp), hp]
    · rw [if_neg hp, if_neg (mt Scalar.same_text_iff.1 hp)]

/-- Merging brings no keys but those of the two mappings. -/
theorem mem_map_fst_merge (h : k ∈ (merge bs es).map Prod.fst) :
    k ∈ bs.map Prod.fst ∨ k ∈ es.map Prod.fst := by
  induction es generalizing bs with
  | nil => exact Or.inl h
  | cons e es ih =>
    obtain ⟨k', v⟩ := e
    rw [merge_cons] at h
    rw [List.map_cons, List.mem_cons]
    rcases ih h with h | h
    · rcases mem_map_fst_put h with rfl | h
      · exact Or.inr (Or.inl rfl)
      · exact Or.inl h
    · exact Or.inr (Or.inr h)

end Entries

namespace Value

variable {v : Value}

/-! ## Values laid over others -/

@[simp] theorem over_none (v : Value) : v.over none = v := by
  cases v <;> rfl

theorem over_mapping (bs es : Entries) :
    (Value.mapping es).over (some (.mapping bs)) = .mapping (Entries.merge bs es) := rfl

/-- Unless both are mappings, the upper value wins. -/
theorem over_cases (old : Option Value) (v : Value) :
    v.over old = v ∨ ∃ bs es, old = some (.mapping bs) ∧ v = .mapping es ∧
      v.over old = .mapping (Entries.merge bs es) := by
  cases v with
  | scalar s => exact Or.inl rfl
  | list items => exact Or.inl rfl
  | mapping es =>
    cases old with
    | none => exact Or.inl rfl
    | some b =>
      cases b with
      | scalar s => exact Or.inl rfl
      | list items => exact Or.inl rfl
      | mapping bs => exact Or.inr ⟨bs, es, rfl, rfl, rfl⟩

@[simp] theorem walk_nil (v : Value) : v.walk [] = some v := by
  cases v <;> rfl

theorem walk_cons (es : Entries) (p : String) (ps : List String) :
    (Value.mapping es).walk (p :: ps) = (es.get? (.text p)).bind (walk ps) := rfl

/-- **What stands at the end of a path after merging**: what the upper value has there, or what the
lower one has where the upper one has nothing, or both merged where both have a mapping. -/
theorem walk_over (h : v.WellFormed) (old : Option Value) (path : List String) :
    (v.over old).walk path = v.walk path ∨
    (v.walk path = none ∧ ∃ o, old = some o ∧ (v.over old).walk path = o.walk path) ∨
    ∃ o bs es, old = some o ∧ o.walk path = some (.mapping bs) ∧ v.walk path = some (.mapping es) ∧
      (v.over old).walk path = some (.mapping (Entries.merge bs es)) := by
  induction path generalizing v old with
  | nil =>
    -- at the end of the path only two mappings make something new
    rcases over_cases old v with hover | ⟨bs, es, rfl, rfl, hover⟩
    · rw [hover]
      exact Or.inl rfl
    · exact Or.inr (Or.inr ⟨.mapping bs, bs, es, rfl, rfl, rfl, by rw [hover, walk_nil]⟩)
  | cons p ps ih =>
    rcases over_cases old v with hover | ⟨bs, es, rfl, rfl, hover⟩
    · -- nothing of the lower value is left
      rw [hover]
      exact Or.inl rfl
    · rw [hover, walk_cons, walk_cons, Entries.get?_merge h]
      cases hv : Entries.get? (.text p) es with
      | none => exact Or.inr (Or.inl ⟨rfl, .mapping bs, rfl, rfl⟩)
      | some w =>
        -- the path goes on through what stands under the key
        rcases ih (Entries.WellFormed.get? h hv) (Entries.get? (.text p) bs) with
          hw | ⟨hw, o, ho, hlow⟩ | ⟨o, cs, ds, ho, hlow, hup, hover⟩
        · exact Or.inl hw
        · refine Or.inr (Or.inl ⟨hw, .mapping bs, rfl, hlow.trans ?_⟩)
          rw [walk_cons, ho]
          rfl
        · refine Or.inr (Or.inr ⟨.mapping bs, cs, ds, rfl, ?_, hup, hover⟩)
          rw [walk_cons, ho]
          exact hlow

end Value

/-! ## Writing as merging -/

namespace Entries

variable {v : Value}

/-- The mapping that holds one value, at the end of a path. -/
def single (value : Value) : List String → Entries
  | [] => []
  | [p] => [(.text p, value)]
  | p :: q :: ps => [(.text p, .mapping (single value (q :: ps)))]

/-- One value at the end of a path makes a well-formed mapping. -/
theorem wellFormed_single (hv : v.WellFormed) (path : List String) :
    (single v path).WellFormed := by
  have hnew : ∀ (k : Scalar), ∀ e ∈ ([] : Entries), k.same e.1 = false :=
    fun _ e he => absurd he List.not_mem_nil
  induction path with
  | nil => exact wellFormed_nil
  | cons p ps ih =>
    cases ps with
    | nil => exact ⟨hnew _, hv, wellFormed_nil⟩
    | cons q ps => exact ⟨hnew _, ih, wellFormed_nil⟩

/-- Laid over nothing, one value at the end of a path makes its mapping. -/
theorem nil_merge_single (value : Value) (path : List String) :
    merge [] (single value path) = single value path := by
  cases path with
  | nil => rfl
  | cons p ps =>
    cases ps with
    | nil => rw [single, merge_cons, merge_nil, get?_nil, Value.over_none, put_nil]
    | cons q ps => rfl

/-- **Writing a scalar at the end of a path** is laying a mapping over that holds nothing else. -/
theorem putPath_eq_merge {s : Scalar} {path : List String} {es fs : Entries}
    (h : es.putPath (.scalar s) path = .ok fs) : fs = merge es (single (.scalar s) path) := by
  induction path generalizing es fs with
  | nil =>
    cases h
    rfl
  | cons p ps ih =>
    cases ps with
    | nil =>
      cases h
      rfl
    | cons q ps =>
      obtain ⟨below, sub, hbelow, hsub, rfl⟩ := putPath_cons_cons h
      rw [single, merge_cons, merge_nil, ih hsub]
      -- the mapping on the way is a new one, or one that is there and keeps its other entries
      rcases hbelow with ⟨hget, rfl⟩ | hget
      · rw [hget, Value.over_none, nil_merge_single]
      · rw [hget, Value.over_mapping]

end Entries

end IgnoreRules
