/-
# Values that are alike

Two values are alike if they differ at most in the order in which their mappings hold their keys.
Nobody asks for that order: a path leads to values that are alike, the schema accepts both or
neither, and what is found in layers that are alike is alike.

* `Value.Alike` : the same values but for the order of keys;
* `Value.Alike.walk` : paths through values that are alike;
* `Schema.isConfiguration_iff_of_alike` : the schema does not see the order;
* `Settings.Alike.get` : settings show it only inside the values that they hold;
* `Value.alike_of_sameWalks` : plain values are alike if every path leads to the same in both.
-/
import IgnoreRules.Proofs.PlainValues
import IgnoreRules.Proofs.WrittenValues

namespace IgnoreRules

/-! ## Alike -/

/-- The values are the same, or they are mappings with the same keys, in whatever order, and what
stands under each key is alike. -/
inductive Value.Alike : Value → Value → Prop
  | refl (v : Value) : Alike v v
  | mapping {es fs : Entries} (keys : (es.map Prod.fst).Perm (fs.map Prod.fst))
      (values : ∀ k ∈ es.map Prod.fst, ∀ v w, es.get? k = some v → fs.get? k = some w → Alike v w) :
      Alike (.mapping es) (.mapping fs)

namespace Entries

variable {es : Entries} {v : Value} {p : String}

/-- Under a text something is found exactly if it is one of the keys. -/
theorem exists_get?_text_iff :
    (∃ v, es.get? (.text p) = some v) ↔ .text p ∈ es.map Prod.fst := by
  induction es with
  | nil => simp
  | cons e es ih =>
    obtain ⟨k, w⟩ := e
    rw [get?_cons, List.map_cons, List.mem_cons, ← ih]
    by_cases hk : k = .text p
    · rw [if_pos (Scalar.same_text_iff.2 hk)]
      exact iff_of_true ⟨w, rfl⟩ (Or.inl hk.symm)
    · rw [if_neg (mt Scalar.same_text_iff.1 hk), or_iff_right (Ne.symm hk)]

end Entries

namespace Value

variable {v w x y : Value} {es fs : Entries}

theorem Alike.symm (h : v.Alike w) : w.Alike v := by
  induction h with
  | refl v => exact .refl v
  | mapping keys values ih =>
    exact .mapping keys.symm fun k hk v w hv hw => ih k (keys.mem_iff.2 hk) w v hw hv

/-- Of two values that are alike, both are null or none is. -/
theorem Alike.isNull_eq (h : v.Alike w) : v.isNull = w.isNull := by
  cases h <;> rfl

/-- A scalar is alike only to itself. -/
theorem Alike.eq_of_scalar {s : Scalar} (h : (Value.scalar s).Alike w) : w = .scalar s := by
  cases h
  rfl

/-- Only a mapping is like a mapping. -/
theorem Alike.exists_mapping (h : (Value.mapping es).Alike w) : ∃ fs, w = .mapping fs := by
  cases h with
  | refl => exact ⟨es, rfl⟩
  | mapping => exact ⟨_, rfl⟩

/-- Mappings that are alike have the same keys, in some order. -/
theorem Alike.perm_keys (h : (Value.mapping es).Alike (.mapping fs)) :
    (es.map Prod.fst).Perm (fs.map Prod.fst) := by
  cases h with
  | refl => exact .refl _
  | mapping keys => exact keys

/-- What stands under a text in one mapping has its counterpart in the other one. -/
theorem Alike.get? {p : String} (h : (Value.mapping es).Alike (.mapping fs))
    (hx : es.get? (.text p) = some x) : ∃ y, fs.get? (.text p) = some y ∧ x.Alike y := by
  cases h with
  | refl => exact ⟨x, hx, .refl x⟩
  | mapping keys values =>
    have hmem := Entries.exists_get?_text_iff.1 ⟨x, hx⟩
    obtain ⟨y, hy⟩ := Entries.exists_get?_text_iff.2 (keys.mem_iff.1 hmem)
    exact ⟨y, hy, values _ hmem x y hx hy⟩

/-- Under a single key, values that are alike make mappings that are alike. -/
theorem Alike.singleton (h : v.Alike w) (p : String) :
    (Value.mapping [(.text p, v)]).Alike (.mapping [(.text p, w)]) := by
  refine .mapping (List.Perm.refl _) ?_
  intro k hk x y hx hy
  rw [List.map_singleton, List.mem_singleton] at hk
  subst hk
  simp only [Entries.get?_cons, Scalar.same_text, decide_true, if_true, Option.some.injEq] at hx hy
  rw [← hx, ← hy]
  exact h

/-- **Along a path, what is alike stays alike.** -/
theorem Alike.walk {path : List String} (h : v.Alike w) (hx : v.walk path = some x) :
    ∃ y, w.walk path = some y ∧ x.Alike y := by
  induction path generalizing v w with
  | nil =>
    rw [walk_nil] at hx
    cases hx
    exact ⟨w, walk_nil w, h⟩
  | cons p path ih =>
    obtain ⟨es, rfl⟩ := exists_mapping_of_walk_cons hx
    obtain ⟨fs, rfl⟩ := h.exists_mapping
    rw [walk_cons] at hx
    obtain ⟨v, hv, hx⟩ := Option.bind_eq_some_iff.1 hx
    obtain ⟨w, hw, hvw⟩ := h.get? hv
    obtain ⟨y, hy, hxy⟩ := ih hvw hx
    exact ⟨y, by rw [walk_cons, hw]; exact hy, hxy⟩

end Value

/-! ## The schema -/

namespace Schema

variable {v w : Value}

/-- The property does not see the order of keys. -/
def Ignores (P : Value → Prop) : Prop := ∀ v w : Value, v.Alike w → P v → P w

/-- A property of scalars does not tell apart what is alike. -/
theorem ignores_of_scalar {P : Value → Prop} (h : ∀ v, P v → ∃ s, v = .scalar s) : Ignores P := by
  intro v w halike hv
  obtain ⟨s, rfl⟩ := h v hv
  rw [halike.eq_of_scalar]
  exact hv

/-- Sections do not see the order of their keys. -/
theorem ignores_isSection {fields : List (String × (Value → Prop))}
    (h : ∀ field ∈ fields, Ignores field.2) : Ignores (IsSection fields) := by
  rintro v w halike ⟨es, rfl, hkeys, hfields⟩
  obtain ⟨fs, rfl⟩ := halike.exists_mapping
  refine ⟨fs, rfl, ?_, ?_⟩
  · intro k hk
    exact hkeys k (halike.perm_keys.mem_iff.2 hk)
  · intro field hfield y hy
    obtain ⟨x, hx, hyx⟩ := halike.symm.get? hy
    exact h field hfield x y hyx.symm (hfields field hfield x hx)

theorem ignores_isLogging : Ignores IsLogging := by
  apply ignores_isSection
  simp only [List.forall_mem_cons, List.not_mem_nil, false_implies, implies_true, and_true]
  constructor
  · apply ignores_of_scalar
    rintro v ⟨name, severity, rfl, -⟩
    exact ⟨_, rfl⟩
  · apply ignores_of_scalar
    rintro v (rfl | ⟨name, rfl, -⟩) <;> exact ⟨_, rfl⟩

theorem ignores_isCache : Ignores IsCache := by
  apply ignores_isSection
  simp only [List.forall_mem_cons, List.not_mem_nil, false_implies, implies_true, and_true]
  constructor
  · apply ignores_of_scalar
    rintro v ⟨b, rfl⟩
    exact ⟨_, rfl⟩
  · apply ignores_of_scalar
    rintro v ⟨n, -, rfl⟩
    exact ⟨_, rfl⟩

theorem ignores_isRoot : Ignores IsRoot := by
  rintro v w halike (rfl | hsection)
  · exact Or.inl halike.eq_of_scalar
  · refine Or.inr (ignores_isSection ?_ v w halike hsection)
    simp only [List.forall_mem_cons, List.not_mem_nil, false_implies, implies_true, and_true]
    exact ⟨ignores_isLogging, ignores_isCache⟩

/-- **Of values that are alike the schema accepts both or neither.** -/
theorem isConfiguration_iff_of_alike (h : v.Alike w) : IsConfiguration v ↔ IsConfiguration w := by
  have hignores : Ignores IsConfiguration := by
    rintro v w halike ⟨es, rfl, hroot⟩
    obtain ⟨fs, rfl⟩ := halike.exists_mapping
    refine ⟨fs, rfl, ?_⟩
    intro y hy
    obtain ⟨x, hx, hyx⟩ := halike.symm.get? hy
    exact ignores_isRoot x y hyx.symm (hroot x hx)
  exact ⟨hignores v w h, hignores w v h.symm⟩

end Schema

/-! ## Settings -/

namespace Settings

variable {s t : Settings}

/-- The layers of every source are alike. -/
def Alike (s t : Settings) : Prop :=
  ∀ source, (Value.mapping (s.layer source)).Alike (.mapping (t.layer source))

/-- In layers that are alike, what stands at the end of a path is alike, or there is nothing. -/
theorem valueIn?_alike {es fs : Entries} (h : (Value.mapping es).Alike (.mapping fs))
    (path : List String) : Option.Rel Value.Alike (valueIn? es path) (valueIn? fs path) := by
  unfold valueIn?
  cases hx : (Value.mapping es).walk path with
  | none =>
    cases hy : (Value.mapping fs).walk path with
    | none => exact .none
    | some y =>
      obtain ⟨x, hx', -⟩ := h.symm.walk hy
      rw [hx] at hx'
      cases hx'
  | some x =>
    obtain ⟨y, hy, hxy⟩ := h.walk hx
    rw [hy, Option.filter_some, Option.filter_some, hxy.isNull_eq]
    split
    · exact .some hxy
    · exact .none

/-- In settings that are alike, the values that are found are alike. -/
theorem Alike.find? (h : s.Alike t) (sources : List Source) (path : List String) :
    Option.Rel Value.Alike (s.find? sources path) (t.find? sources path) := by
  induction sources with
  | nil => exact .none
  | cons source sources ih =>
    rw [find?_cons, find?_cons]
    have hvalue := valueIn?_alike (h source) path
    generalize valueIn? (s.layer source) path = a at hvalue
    generalize valueIn? (t.layer source) path = b at hvalue
    cases hvalue with
    | some hxy => exact .some hxy
    | none => exact ih

/-- **What is found in settings that are alike is alike**, for every key and every default. -/
theorem Alike.get (h : s.Alike t) (key : String) (default : Value) :
    (s.get key default).Alike (t.get key default) := by
  have hfound := h.find? Source.ascending.reverse (parts key)
  unfold Settings.get get?
  generalize s.find? Source.ascending.reverse (parts key) = a at hfound
  generalize t.find? Source.ascending.reverse (parts key) = b at hfound
  cases hfound with
  | some hxy => exact hxy
  | none => exact .refl default

end Settings

/-! ## Values with the same paths -/

namespace Entries

variable {es : Entries} {v : Value}

theorem sizeOf_lt_of_get? {key : Scalar} (h : es.get? key = some v) : sizeOf v < sizeOf es := by
  obtain ⟨k, hk⟩ := mem_of_get? h
  have hlt := List.sizeOf_lt_of_mem hk
  simp only [Prod.mk.sizeOf_spec] at hlt
  omega

/-- Texts that are not the same key are different. -/
theorem Plain.nodup_keys (h : es.Plain) (hwell : es.WellFormed) : (es.map Prod.fst).Nodup := by
  refine List.Pairwise.imp_of_mem ?_ (wellFormed_iff.1 hwell).1
  rintro a b ha - hab rfl
  obtain ⟨name, rfl⟩ := h.exists_text ha
  rw [Scalar.same_text, decide_eq_false_iff_not] at hab
  exact hab rfl

end Entries

namespace Value

variable {v w x y : Value} {es fs : Entries}

theorem walk_singleton (es : Entries) (p : String) :
    (Value.mapping es).walk [p] = es.get? (.text p) := by
  rw [walk_cons]
  cases es.get? (.text p) with
  | none => rfl
  | some v => exact walk_nil v

/-- Every path leads to the same scalar in both values, or to a mapping in both, or to neither in
either of them. -/
structure SameWalks (v w : Value) : Prop where
  scalar : ∀ path s, v.walk path = some (.scalar s) ↔ w.walk path = some (.scalar s)
  mapping : ∀ path, (∃ sub, v.walk path = some (.mapping sub)) ↔
    ∃ sub, w.walk path = some (.mapping sub)

theorem SameWalks.symm (h : v.SameWalks w) : w.SameWalks v :=
  ⟨fun path s => (h.scalar path s).symm, fun path => (h.mapping path).symm⟩

/-- Under each key, too, the paths lead to the same. -/
theorem SameWalks.get? {p : String} (h : (Value.mapping es).SameWalks (.mapping fs))
    (hx : es.get? (.text p) = some x) (hy : fs.get? (.text p) = some y) : x.SameWalks y := by
  have hes : ∀ path, (Value.mapping es).walk (p :: path) = x.walk path := by
    intro path
    rw [walk_cons, hx, Option.bind_some]
  have hfs : ∀ path, (Value.mapping fs).walk (p :: path) = y.walk path := by
    intro path
    rw [walk_cons, hy, Option.bind_some]
  constructor
  · intro path s
    rw [← hes, ← hfs]
    exact h.scalar (p :: path) s
  · intro path
    rw [← hes, ← hfs]
    exact h.mapping (p :: path)

/-- Plain mappings through which the same paths lead have the same keys. -/
theorem SameWalks.mem_keys {k : Scalar} (h : (Value.mapping es).SameWalks (.mapping fs))
    (hes : es.Plain) (hk : k ∈ es.map Prod.fst) : k ∈ fs.map Prod.fst := by
  obtain ⟨p, rfl⟩ := hes.exists_text hk
  obtain ⟨x, hx⟩ := Entries.exists_get?_text_iff.2 hk
  have hwalk := (walk_singleton es p).trans hx
  rw [← Entries.exists_get?_text_iff, ← walk_singleton]
  cases x with
  | scalar s => exact ⟨_, (h.scalar [p] s).1 hwalk⟩
  | list items => exact False.elim (hes.get? hx)
  | mapping sub =>
    obtain ⟨sub', hsub⟩ := (h.mapping [p]).1 ⟨sub, hwalk⟩
    exact ⟨_, hsub⟩

/-- **Plain values are alike if every path leads to the same in both.** -/
theorem alike_of_sameWalks {v w : Value} (hv : v.Plain) (hw : w.Plain) (hvwell : v.WellFormed)
    (hwwell : w.WellFormed) (h : v.SameWalks w) : v.Alike w := by
  match v with
  | .scalar s =>
    have hself := (h.scalar [] s).1 (walk_nil _)
    rw [walk_nil] at hself
    cases hself
    exact .refl _
  | .list items => exact False.elim hv
  | .mapping es =>
    obtain ⟨fs, hself⟩ := (h.mapping []).1 ⟨es, walk_nil _⟩
    rw [walk_nil] at hself
    cases hself
    have hes : Entries.Plain es := hv
    have hfs : Entries.Plain fs := hw
    refine .mapping ?_ ?_
    · rw [List.perm_ext_iff_of_nodup (hes.nodup_keys hvwell) (hfs.nodup_keys hwwell)]
      intro k
      exact ⟨h.mem_keys hes, h.symm.mem_keys hfs⟩
    · intro k hk x y hx hy
      obtain ⟨p, rfl⟩ := hes.exists_text hk
      -- what stands under a key is smaller than the mapping
      have hlt := Entries.sizeOf_lt_of_get? hx
      exact alike_of_sameWalks (hes.get? hx) (hfs.get? hy) (Entries.WellFormed.get? hvwell hx)
        (Entries.WellFormed.get? hwwell hy) (h.get? hx hy)
termination_by sizeOf v

end Value

end IgnoreRules
