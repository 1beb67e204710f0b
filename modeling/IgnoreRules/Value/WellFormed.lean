/-
# Well-formed values

A mapping holds each of its keys once.  The type of values does not say so, but whatever writes
entries sees to it: a key that is there is written over.

* `Value.WellFormed` : no mapping in the value holds a key twice;
* `Entries.putPath_induction` : what writing at the end of a path keeps;
* `Entries.WellFormed.put`, `Entries.WellFormed.putPath` : writing keeps entries well-formed.
-/
import IgnoreRules.Value

namespace IgnoreRules

/-! ## Values without repeated keys -/

mutual

/-- Every mapping in the value holds each of its keys once. -/
def Value.WellFormed : Value → Prop
  | .scalar _ => True
  | .list items => Value.AllWellFormed items
  | .mapping es => Entries.WellFormed es

/-- The same for all items of a list. -/
def Value.AllWellFormed : List Value → Prop
  | [] => True
  | v :: vs => v.WellFormed ∧ Value.AllWellFormed vs

/-- The same for entries, which hold each of their keys once. -/
def Entries.WellFormed : Entries → Prop
  | [] => True
  | (k, v) :: es => (∀ e ∈ es, k.same e.1 = false) ∧ v.WellFormed ∧ Entries.WellFormed es

end

@[simp] theorem Value.wellFormed_scalar (s : Scalar) : (Value.scalar s).WellFormed := trivial

@[simp] theorem Value.wellFormed_mapping_iff {es : Entries} :
    (Value.mapping es).WellFormed ↔ es.WellFormed := Iff.rfl

namespace Entries

variable {es : Entries} {k : Scalar} {v : Value} {p : String}

@[simp] theorem wellFormed_nil : WellFormed [] := trivial

/-- Entries are well-formed exactly if no key comes twice and all values are well-formed. -/
theorem wellFormed_iff : WellFormed es ↔
    (es.map Prod.fst).Pairwise (fun a b => a.same b = false) ∧ ∀ e ∈ es, e.2.WellFormed := by
  induction es with
  | nil => simp
  | cons e es ih =>
    obtain ⟨k, v⟩ := e
    rw [WellFormed, ih, List.map_cons, List.pairwise_cons, List.forall_mem_cons,
      List.forall_mem_map]
    constructor
    · rintro ⟨hk, hv, hkeys, hvs⟩
      exact ⟨⟨hk, hkeys⟩, hv, hvs⟩
    · rintro ⟨⟨hk, hkeys⟩, hv, hvs⟩
      exact ⟨hk, hv, hkeys, hvs⟩

/-! ## Single entries -/

/-- What is found under a key is one of the entries. -/
theorem mem_of_get? {key : Scalar} (h : es.get? key = some v) : ∃ k, (k, v) ∈ es := by
  induction es with
  | nil => cases h
  | cons e es ih =>
    obtain ⟨k, w⟩ := e
    rw [get?_cons] at h
    split at h
    · cases h
      exact ⟨k, List.mem_cons_self⟩
    · obtain ⟨k', hk'⟩ := ih h
      exact ⟨k', List.mem_cons_of_mem _ hk'⟩

/-- What is found in a well-formed mapping is well-formed. -/
theorem WellFormed.get? {key : Scalar} (h : es.WellFormed) (hv : es.get? key = some v) :
    v.WellFormed := by
  obtain ⟨k, hk⟩ := mem_of_get? hv
  exact (wellFormed_iff.1 h).2 _ hk

/-- A key that is there stays where it is, and a new one comes last. -/
theorem map_fst_put (es : Entries) (k : Scalar) (v : Value) :
    (es.put k v).map Prod.fst
      = if es.any fun e => e.1.same k then es.map Prod.fst else es.map Prod.fst ++ [k] := by
  induction es with
  | nil => rfl
  | cons e es ih =>
    obtain ⟨k', w⟩ := e
    rw [put_cons, List.any_cons]
    by_cases hk : k'.same k = true
    · rw [if_pos hk, hk, Bool.true_or, if_pos rfl]
      rfl
    · rw [if_neg hk, Bool.eq_false_iff.2 hk, Bool.false_or, List.map_cons, ih, List.map_cons]
      split <;> rfl

/-- Putting a key adds no other keys. -/
theorem mem_map_fst_put {k' : Scalar} (h : k' ∈ (es.put k v).map Prod.fst) :
    k' = k ∨ k' ∈ es.map Prod.fst := by
  rw [map_fst_put] at h
  split at h
  · exact Or.inr h
  · rcases List.mem_append.1 h with h | h
    · exact Or.inr h
    · exact Or.inl (List.mem_singleton.1 h)

theorem snd_of_mem_put {e : Scalar × Value} (h : e ∈ es.put k v) : e.2 = v ∨ e ∈ es := by
  induction es with
  | nil =>
    rw [put_nil, List.mem_singleton] at h
    exact Or.inl (congrArg Prod.snd h)
  | cons d es ih =>
    obtain ⟨k', w⟩ := d
    rw [put_cons] at h
    split at h
    · rcases List.mem_cons.1 h with rfl | h
      · exact Or.inl rfl
      · exact Or.inr (List.mem_cons_of_mem _ h)
    · rcases List.mem_cons.1 h with rfl | h
      · exact Or.inr List.mem_cons_self
      · exact (ih h).imp_right (List.mem_cons_of_mem _)

/-- Writing a key makes no key come twice. -/
theorem WellFormed.put (h : es.WellFormed) (hv : v.WellFormed) (k : Scalar) :
    (es.put k v).WellFormed := by
  obtain ⟨hkeys, hvs⟩ := wellFormed_iff.1 h
  refine wellFormed_iff.2 ⟨?_, ?_⟩
  · rw [map_fst_put]
    split
    · exact hkeys
    · next hnew =>
      -- the new key is none of those before it
      refine List.pairwise_append.2 ⟨hkeys, List.pairwise_singleton _ _, ?_⟩
      intro a ha b hb
      obtain ⟨e, he, rfl⟩ := List.mem_map.1 ha
      rw [List.mem_singleton.1 hb, Bool.eq_false_iff]
      intro hsame
      exact hnew (List.any_eq_true.2 ⟨e, he, hsame⟩)
  · intro e he
    rcases snd_of_mem_put he with hev | he
    · rw [hev]
      exact hv
    · exact hvs e he

/-- Entries that are written one after the other are well-formed if their values are. -/
theorem wellFormed_ofList {es : List (Scalar × Value)} (h : ∀ e ∈ es, e.2.WellFormed) :
    (ofList es).WellFormed := by
  suffices hacc : ∀ acc : Entries, acc.WellFormed →
      (es.foldl (fun acc e => Entries.put e.1 e.2 acc) acc).WellFormed from hacc [] wellFormed_nil
  induction es with
  | nil => exact fun acc hacc => hacc
  | cons e es ih =>
    intro acc hacc
    exact ih (fun d hd => h d (List.mem_cons_of_mem e hd)) _ (hacc.put (h e List.mem_cons_self) e.1)

/-! ## Paths -/

/-- A path that goes on leads through a mapping, which is made if nothing is there. -/
theorem putPath_cons_cons {q : String} {ps : List String} {fs : Entries}
    (h : es.putPath v (p :: q :: ps) = .ok fs) :
    ∃ below sub : Entries, (es.get? (.text p) = none ∧ below = [] ∨
        es.get? (.text p) = some (.mapping below)) ∧
      putPath v (q :: ps) below = .ok sub ∧ fs = es.put (.text p) (.mapping sub) := by
  have hmap : ∀ {below : Entries}, (putPath v (q :: ps) below).map
      (fun sub => es.put (.text p) (.mapping sub)) = .ok fs →
      ∃ sub, putPath v (q :: ps) below = .ok sub ∧ fs = es.put (.text p) (.mapping sub) := by
    intro below hbelow
    cases hsub : putPath v (q :: ps) below with
    | error e =>
      rw [hsub] at hbelow
      cases hbelow
    | ok sub =>
      rw [hsub] at hbelow
      cases hbelow
      exact ⟨sub, rfl, rfl⟩
  rw [putPath] at h
  split at h
  · next hget =>
    obtain ⟨sub, hsub, hfs⟩ := hmap h
    exact ⟨[], sub, Or.inl ⟨hget, rfl⟩, hsub, hfs⟩
  · next below hget =>
    obtain ⟨sub, hsub, hfs⟩ := hmap h
    exact ⟨below, sub, Or.inr hget, hsub, hfs⟩
  · cases h

/-- **Writing a value at the end of a path keeps what writing single entries keeps**, if it holds of
empty mappings and of all that stands in a mapping that it holds of. -/
theorem putPath_induction {P : Value → Prop} {path : List String} {fs : Entries}
    (hnil : P (.mapping []))
    (hget : ∀ {es : Entries} {p : String} {w : Value},
      P (.mapping es) → es.get? (.text p) = some w → P w)
    (hput : ∀ {es : Entries} {p : String} {w : Value},
      P (.mapping es) → P w → P (.mapping (es.put (.text p) w)))
    (hv : P v) (hes : P (.mapping es)) (h : es.putPath v path = .ok fs) : P (.mapping fs) := by
  induction path generalizing es fs with
  | nil =>
    cases h
    exact hes
  | cons p ps ih =>
    cases ps with
    | nil =>
      cases h
      exact hput hes hv
    | cons q ps =>
      obtain ⟨below, sub, hbelow, hsub, rfl⟩ := putPath_cons_cons h
      have hmapping : P (.mapping below) := by
        rcases hbelow with ⟨-, rfl⟩ | hfound
        · exact hnil
        · exact hget hes hfound
      exact hput hes (ih hmapping hsub)

/-- Writing a value at the end of a path makes no key come twice. -/
theorem WellFormed.putPath {path : List String} {fs : Entries} (h : es.WellFormed)
    (hv : v.WellFormed) (hput : es.putPath v path = .ok fs) : fs.WellFormed :=
  putPath_induction (P := Value.WellFormed) wellFormed_nil
    (fun hes hfound => WellFormed.get? hes hfound) (fun hes hw => WellFormed.put hes hw _) hv h hput

end Entries

end IgnoreRules
