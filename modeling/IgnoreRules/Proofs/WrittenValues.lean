/-
# Written values

A value is written at the end of a path.  Afterwards it stands there, mappings stand on the way to
it, and whatever stands elsewhere is what it was: at the end of every path that neither goes on from
the written one nor ends on the way to it.  In settings, the layers that are asked before the
written one may hide the new value, and it hides what the layers behind say.

* `GoesOn`, `Apart` : one of two paths goes on as the other, or neither does;
* `Entries.walk_putPath_append`, `Entries.walk_putPath_of_apart`, `Entries.walk_putPath_cases` :
  where paths lead after a value was written;
* `Settings.get?_set` : what is found under a key that was written;
* `set_changes_one_value` : writing the value of a key changes what is found under it, if no other
  source comes first, and what is found under no key apart from it.
-/
import IgnoreRules.Proofs.LayerOrder

namespace IgnoreRules

/-! ## Paths and other paths -/

/-- The first path goes on as the second one. -/
def GoesOn (p q : List String) : Prop := p <+: q ∧ p ≠ q

/-- A path goes on as another if it leads to what is above the end of that. -/
theorem goesOn_iff_prefix_dropLast {p q : List String} :
    GoesOn p q ↔ q ≠ [] ∧ p <+: q.dropLast := by
  unfold GoesOn
  constructor
  · rintro ⟨⟨rest, rfl⟩, hne⟩
    have hrest : rest ≠ [] := by
      rintro rfl
      exact hne (List.append_nil p).symm
    rw [List.dropLast_append_of_ne_nil hrest]
    exact ⟨List.append_ne_nil_of_right_ne_nil p hrest, List.prefix_append p _⟩
  · rintro ⟨hq, hfront⟩
    refine ⟨hfront.trans (List.dropLast_prefix q), ?_⟩
    rintro rfl
    have hlength := hfront.length_le
    have hpos := List.length_pos_iff.2 hq
    rw [List.length_dropLast] at hlength
    omega

/-- Neither path goes on from the other, and they are not the same. -/
def Apart (p q : List String) : Prop := ¬p <+: q ∧ ¬q <+: p

theorem Apart.symm {p q : List String} (h : Apart p q) : Apart q p := ⟨h.2, h.1⟩

theorem not_apart_nil (p : List String) : ¬Apart p [] := fun h => h.2 List.nil_prefix

theorem apart_cons_cons {a : String} {p q : List String} : Apart (a :: p) (a :: q) ↔ Apart p q := by
  unfold Apart
  rw [List.cons_prefix_cons, List.cons_prefix_cons]
  simp

namespace Value

variable {v w : Value}

/-! ## Walking on -/

/-- Only through mappings a path goes on. -/
theorem exists_mapping_of_walk_cons {p : String} {path : List String}
    (h : v.walk (p :: path) = some w) : ∃ es, v = .mapping es := by
  cases v with
  | mapping es => exact ⟨es, rfl⟩
  | scalar s => cases h
  | list items => cases h

/-- A path leads on from where its front leads. -/
theorem walk_append (v : Value) (front path : List String) :
    v.walk (front ++ path) = (v.walk front).bind (walk path) := by
  induction front generalizing v with
  | nil =>
    rw [List.nil_append, walk_nil]
    rfl
  | cons p front ih =>
    cases v with
    | mapping es =>
      rw [List.cons_append, walk_cons, walk_cons, Option.bind_assoc]
      congr 1
      funext w
      exact ih w
    | scalar s => rfl
    | list items => rfl

/-- Where a path leads to something, a mapping stands wherever it goes on. -/
theorem exists_mapping_of_goesOn {front path : List String} (h : v.walk path = some w)
    (hfront : GoesOn front path) : ∃ sub, v.walk front = some (.mapping sub) := by
  obtain ⟨⟨rest, rfl⟩, hne⟩ := hfront
  obtain ⟨p, ps, rfl⟩ := List.exists_cons_of_ne_nil
    fun hnil : rest = [] => hne (by rw [hnil, List.append_nil])
  rw [walk_append, Option.bind_eq_some_iff] at h
  obtain ⟨x, hx, hrest⟩ := h
  obtain ⟨sub, rfl⟩ := exists_mapping_of_walk_cons hrest
  exact ⟨sub, hx⟩

end Value

namespace Entries

variable {es fs : Entries} {v : Value} {path other : List String}

/-! ## Where paths lead after writing -/

/-- A path that begins with the written key leads on from the written value, and another one leads
where it led before. -/
theorem walk_put (es : Entries) (p q : String) (v : Value) (path : List String) :
    (Value.mapping (es.put (.text p) v)).walk (q :: path)
      = if p = q then v.walk path else (Value.mapping es).walk (q :: path) := by
  rw [Value.walk_cons, Value.walk_cons, get?_put_text]
  by_cases h : p = q
  · rw [if_pos h, if_pos (congrArg Scalar.text h), Option.bind_some]
  · rw [if_neg h, if_neg fun hk => h (Scalar.text.inj hk)]

/-- **Behind the end of the written path stands what the written value holds there.** -/
theorem walk_putPath_append (h : es.putPath v path = .ok fs) (hne : path ≠ [])
    (more : List String) : (Value.mapping fs).walk (path ++ more) = v.walk more := by
  induction path generalizing es fs with
  | nil => exact absurd rfl hne
  | cons p ps ih =>
    cases ps with
    | nil =>
      cases h
      rw [List.singleton_append, walk_put, if_pos rfl]
    | cons q ps =>
      obtain ⟨below, sub, -, hsub, rfl⟩ := putPath_cons_cons h
      rw [List.cons_append, walk_put, if_pos rfl]
      exact ih hsub (List.cons_ne_nil q ps)

/-- What was written stands at the end of its path. -/
theorem walk_putPath_self (h : es.putPath v path = .ok fs) (hne : path ≠ []) :
    (Value.mapping fs).walk path = some v := by
  rw [← List.append_nil path, walk_putPath_append h hne, Value.walk_nil]

/-- **Apart from the written path nothing changes.** -/
theorem walk_putPath_of_apart (h : es.putPath v path = .ok fs) (hapart : Apart path other) :
    (Value.mapping fs).walk other = (Value.mapping es).walk other := by
  induction path generalizing es fs other with
  | nil => exact absurd hapart.symm (not_apart_nil other)
  | cons p ps ih =>
    cases other with
    | nil => exact absurd hapart (not_apart_nil _)
    | cons q rest =>
      cases ps with
      | nil =>
        cases h
        have hpq : p ≠ q := by
          rintro rfl
          exact hapart.1 (List.cons_prefix_cons.2 ⟨rfl, List.nil_prefix⟩)
        rw [walk_put, if_neg hpq]
      | cons r ps =>
        obtain ⟨below, sub, hbelow, hsub, rfl⟩ := putPath_cons_cons h
        rw [walk_put]
        by_cases hpq : p = q
        · subst hpq
          have hrest : Apart (r :: ps) rest := apart_cons_cons.1 hapart
          rw [if_pos rfl, ih hsub hrest, Value.walk_cons]
          rcases hbelow with ⟨hget, rfl⟩ | hget
          · -- through a mapping that was made now the path led nowhere
            obtain ⟨a, as, rfl⟩ := List.exists_cons_of_ne_nil
              fun hnil : rest = [] => not_apart_nil _ (hnil ▸ hrest)
            rw [hget]
            rfl
          · rw [hget, Option.bind_some]
        · rw [if_neg hpq]

/-- **All that a path can lead to after a scalar was written**: to the scalar, to a mapping on the
way to it, to nothing behind it, and, apart from it, to what was there before. -/
theorem walk_putPath_cases {s : Scalar} (h : es.putPath (.scalar s) path = .ok fs)
    (hne : path ≠ []) (other : List String) :
    other = path ∧ (Value.mapping fs).walk other = some (.scalar s) ∨
    GoesOn other path ∧ (∃ sub, (Value.mapping fs).walk other = some (.mapping sub)) ∨
    GoesOn path other ∧ (Value.mapping fs).walk other = none ∨
    Apart path other ∧ (Value.mapping fs).walk other = (Value.mapping es).walk other := by
  by_cases heq : other = path
  · rw [heq]
    exact Or.inl ⟨rfl, walk_putPath_self h hne⟩
  by_cases hfront : other <+: path
  · exact Or.inr (Or.inl ⟨⟨hfront, heq⟩,
      Value.exists_mapping_of_goesOn (walk_putPath_self h hne) ⟨hfront, heq⟩⟩)
  by_cases hbehind : path <+: other
  · obtain ⟨more, rfl⟩ := hbehind
    obtain ⟨p, ps, rfl⟩ := List.exists_cons_of_ne_nil
      fun hnil : more = [] => heq (by rw [hnil, List.append_nil])
    refine Or.inr (Or.inr (Or.inl ⟨⟨List.prefix_append path _, Ne.symm heq⟩, ?_⟩))
    rw [walk_putPath_append h hne]
    rfl
  · exact Or.inr (Or.inr (Or.inr ⟨⟨hbehind, hfront⟩, walk_putPath_of_apart h ⟨hbehind, hfront⟩⟩))

end Entries

/-! ## Sources around a source -/

namespace Source

/-- The sources of higher precedence, the highest first. -/
def above (source : Source) : List Source := ascending.reverse.filter fun t => source.rank < t.rank

/-- The sources of lower precedence, the highest first. -/
def below (source : Source) : List Source := ascending.reverse.filter fun t => t.rank < source.rank

/-- The sources of higher precedence are asked before a source, and the lower ones behind it. -/
theorem reverse_ascending_eq (source : Source) :
    ascending.reverse = source.above ++ source :: source.below := by
  cases source <;> rfl

theorem mem_above {source t : Source} : t ∈ source.above ↔ source.rank < t.rank := by
  simp [above, mem_ascending]

theorem mem_below {source t : Source} : t ∈ source.below ↔ t.rank < source.rank := by
  simp [below, mem_ascending]

end Source

namespace Settings

variable {s t : Settings} {key : String} {value : Value} {source : Source} {path : List String}

/-! ## Finding a value -/

/-- The layer of the source holds a value for the key that is not null. -/
def Has (s : Settings) (source : Source) (key : String) : Prop :=
  ∃ v, v ≠ .null ∧ (Value.mapping (s.layer source)).walk (parts key) = some v

/-- A source has no value for a key if none is found in its layer. -/
theorem valueIn?_eq_none_iff :
    valueIn? (s.layer source) (parts key) = none ↔ ¬s.Has source key := by
  unfold valueIn? Has
  rw [Option.filter_eq_none_iff]
  constructor
  · rintro h ⟨v, hnull, hv⟩
    exact h v hv (by rw [Value.isNull_eq_false hnull]; rfl)
  · intro h v hv hshown
    refine h ⟨v, ?_, hv⟩
    rintro rfl
    cases hshown

/-- What is found depends on what the layers of the asked sources say. -/
theorem find?_congr {sources : List Source}
    (h : ∀ u ∈ sources, valueIn? (t.layer u) path = valueIn? (s.layer u) path) :
    t.find? sources path = s.find? sources path := by
  induction sources with
  | nil => rfl
  | cons u sources ih =>
    rw [find?_cons, find?_cons, h u List.mem_cons_self,
      ih fun w hw => h w (List.mem_cons_of_mem u hw)]

/-- The sources of higher precedence come first, then the given one, then the others. -/
theorem get?_eq (s : Settings) (source : Source) (key : String) :
    s.get? key = (s.find? source.above (parts key)).or
      ((valueIn? (s.layer source) (parts key)).or (s.find? source.below (parts key))) := by
  unfold get?
  rw [source.reverse_ascending_eq, find?_append, find?_cons]

/-! ## Writing one value -/

/-- Writing a value changes the layer of its source, and no other one. -/
theorem exists_putPath_of_set (h : s.set key value source = .ok t) :
    (s.layer source).putPath value (parts key) = .ok (t.layer source) ∧
      ∀ u, u ≠ source → t.layer u = s.layer u := by
  unfold set at h
  split at h
  · next es hput =>
    cases h
    rw [layer_replace_self]
    exact ⟨hput, fun u hu => layer_replace_of_ne s es hu⟩
  · cases h

/-- **What is found under a key that was written** comes from a source of higher precedence, or it
is the written value, unless that is null, or it comes from a source of lower precedence. -/
theorem get?_set (h : s.set key value source = .ok t) :
    t.get? key = (s.find? source.above (parts key)).or
      (((some value).filter fun v => !v.isNull).or (s.find? source.below (parts key))) := by
  obtain ⟨hput, hother⟩ := exists_putPath_of_set h
  have hvalue : valueIn? (t.layer source) (parts key)
      = (some value).filter fun v => !v.isNull := by
    unfold valueIn?
    rw [Entries.walk_putPath_self hput (parts_ne_nil key)]
  have habove : t.find? source.above (parts key) = s.find? source.above (parts key) := by
    apply find?_congr
    intro u hu
    have hlt := Source.mem_above.1 hu
    rw [hother u (by rintro rfl; omega)]
  have hbelow : t.find? source.below (parts key) = s.find? source.below (parts key) := by
    apply find?_congr
    intro u hu
    have hlt := Source.mem_below.1 hu
    rw [hother u (by rintro rfl; omega)]
  rw [get?_eq t source, hvalue, habove, hbelow]

/-- **What is found under another key stays**, if its path is apart from the written one. -/
theorem get?_set_of_apart (h : s.set key value source = .ok t) {other : String}
    (hapart : Apart (parts key) (parts other)) : t.get? other = s.get? other := by
  obtain ⟨hput, hother⟩ := exists_putPath_of_set h
  apply find?_congr
  intro u _
  by_cases hu : u = source
  · subst hu
    unfold valueIn?
    rw [Entries.walk_putPath_of_apart hput hapart]
  · rw [hother u hu]

/-- **Writing changes one value.**  A value was written under a key in the layer of a source.  If
it is not null, and no source of higher precedence has a value for the key, then it is found there,
whatever the default.  If some source of higher precedence has one, the same is found as before.
And under every key apart from the written one the same is found as before, for every default. -/
theorem set_changes_one_value (h : s.set key value source = .ok t) :
    (value ≠ .null → (∀ higher, source.rank < higher.rank → ¬s.Has higher key) →
      ∀ default, t.get key default = value) ∧
    ((∃ higher, source.rank < higher.rank ∧ s.Has higher key) →
      ∀ default, t.get key default = s.get key default) ∧
    ∀ other, Apart (parts key) (parts other) →
      ∀ default, t.get other default = s.get other default := by
  refine ⟨?_, ?_, ?_⟩
  · intro hnull hnone default
    have habove : s.find? source.above (parts key) = none := by
      apply List.findSome?_eq_none_iff.2
      intro higher hhigher
      exact valueIn?_eq_none_iff.2 (hnone higher (Source.mem_above.1 hhigher))
    have hfound : t.get? key = some value := by
      rw [get?_set h, habove, Option.none_or, Option.filter_some, Value.isNull_eq_false hnull]
      rfl
    exact get_of_get? hfound default
  · rintro ⟨higher, hlt, hhas⟩ default
    have habove : (s.find? source.above (parts key)).isSome = true := by
      apply List.findSome?_isSome_iff.2
      refine ⟨higher, Source.mem_above.2 hlt, ?_⟩
      rw [Option.isSome_iff_ne_none]
      exact fun hnone => valueIn?_eq_none_iff.1 hnone hhas
    -- the first value that is found stands in a layer that was not touched
    have hsame : t.get? key = s.get? key := by
      obtain ⟨v, hv⟩ := Option.isSome_iff_exists.1 habove
      rw [get?_set h, get?_eq s source, hv, Option.some_or, Option.some_or]
    unfold get
    rw [hsame]
  · intro other hapart default
    unfold get
    rw [get?_set_of_apart h hapart]

/-- A mapping is made on the way to the value. -/
example : ((Settings.initial.set "a.b" (.int 1) .user).toOption.map fun s => s.get "a.b" .null)
    = some (.int 1) := rfl

end Settings

end IgnoreRules
