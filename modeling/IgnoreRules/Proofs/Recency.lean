/-
# Recency

Keys that are used one after the other are listed with the latest first; `List.eraseDups` leaves
each of them where it was used last.  A bounded cache keeps the first of these keys.

* `touch` moves a key to the front of a list that has room for `n`;
* `touch_take_eraseDups` : the `n` keys used last stay the `n` keys used last;
* `mem_take_eraseDups_iff` : a key is one of them exactly when fewer than `n` others were used
  since;
* `keys_put`, `keys_get_of_mem` : writing a key and finding it both touch it.
-/
import IgnoreRules.Cache

namespace IgnoreRules.Recency

open scoped List

variable {κ : Type} [BEq κ] {key : κ}

/-! ## Members without repetitions -/

/-- Dropping members before or after repetitions are dropped makes no difference. -/
theorem eraseDups_filter (p : κ → Bool) [LawfulBEq κ] (xs : List κ) :
    (xs.filter p).eraseDups = xs.eraseDups.filter p := by
  -- dropping repetitions goes on with a filtered tail, which is shorter but no tail of the list
  induction hn : xs.length using Nat.strongRecOn generalizing xs with
  | ind n ih =>
    cases xs with
    | nil => rfl
    | cons a as =>
      have hlen : (as.filter fun b => !b == a).length < n := by
        have hle := List.length_filter_le (fun b => !b == a) as
        rw [List.length_cons] at hn
        omega
      have hrest := ih _ hlen (as.filter fun b => !b == a) rfl
      rw [List.eraseDups_cons]
      by_cases ha : p a = true
      · rw [List.filter_cons_of_pos ha, List.filter_cons_of_pos ha, List.eraseDups_cons, ← hrest,
          List.filter_filter, List.filter_filter]
        simp only [Bool.and_comm]
      · -- whatever satisfies `p` differs from the head
        have hsame : (as.filter fun b => !b == a).filter p = as.filter p := by
          rw [List.filter_filter]
          apply List.filter_congr
          intro b _
          by_cases hb : b = a
          · subst hb
            simp [ha]
          · simp [hb]
        rw [List.filter_cons_of_neg ha, List.filter_cons_of_neg ha, ← hrest, hsame]

/-- The first member comes first, and all others that differ from it follow in their order. -/
theorem eraseDups_cons_eq [LawfulBEq κ] (a : κ) (as : List κ) :
    (a :: as).eraseDups = a :: as.eraseDups.filter fun b => !b == a := by
  rw [List.eraseDups_cons, eraseDups_filter]

/-- A last member is left if it was not there before. -/
theorem eraseDups_concat [LawfulBEq κ] (xs : List κ) (x : κ) :
    (xs ++ [x]).eraseDups = if x ∈ xs then xs.eraseDups else xs.eraseDups ++ [x] := by
  rw [List.eraseDups_append, List.cons_removeAll]
  by_cases hx : x ∈ xs
  · rw [if_pos hx, if_neg (by simpa using hx)]
    simp
  · rw [if_neg hx, if_pos (by simpa using hx)]
    rfl

/-- No member is left twice. -/
theorem nodup_eraseDups [LawfulBEq κ] (xs : List κ) : xs.eraseDups.Nodup := by
  induction xs with
  | nil => simp
  | cons a as ih =>
    rw [eraseDups_cons_eq]
    refine List.nodup_cons.2 ⟨?_, ih.filter _⟩
    simp

/-- Where no two keys are the same, leaving out one that is there leaves out one member. -/
theorem length_filter_of_same [PartialEquivBEq κ] {keys : List κ}
    (hd : keys.Pairwise fun a b => (a == b) = false) (h : ∃ k ∈ keys, (key == k) = true) :
    (keys.filter fun k => !k == key).length + 1 = keys.length := by
  induction keys with
  | nil => simp at h
  | cons a keys ih =>
    obtain ⟨ha, hd⟩ := List.pairwise_cons.1 hd
    by_cases hk : (a == key) = true
    · -- whatever is the same as the key is the same as `a`, and none of the others is
      have hall : ∀ k ∈ keys, (!k == key) = true := by
        intro k hmem
        rw [Bool.not_eq_true', Bool.eq_false_iff]
        intro hsame
        have hak : (a == k) = true := BEq.trans hk (BEq.symm hsame)
        rw [ha k hmem] at hak
        cases hak
      rw [List.filter_cons_of_neg (by simp [hk]), List.filter_eq_self.2 hall, List.length_cons]
    · have hrest : ∃ k ∈ keys, (key == k) = true := by
        obtain ⟨k, hmem, hsame⟩ := h
        rcases List.mem_cons.1 hmem with rfl | hmem
        · exact absurd (BEq.symm hsame) hk
        · exact ⟨k, hmem, hsame⟩
      rw [List.filter_cons_of_pos (by simpa using hk), List.length_cons, List.length_cons,
        ih hd hrest]

/-- Leaving out one of the members that are there once makes the list one shorter. -/
theorem length_filter_of_mem [LawfulBEq κ] {keys : List κ} (hnd : keys.Nodup) (hmem : key ∈ keys) :
    (keys.filter fun k => !k == key).length + 1 = keys.length := by
  have hd : keys.Pairwise fun a b => (a == b) = false := hnd.imp fun hne => beq_false_of_ne hne
  exact length_filter_of_same hd ⟨key, hmem, beq_self_eq_true key⟩

/-! ## Moving a key to the front -/

/-- The keys of a list of at most `n` once one of them, or another one, is moved to its front. -/
def touch (n : Nat) (key : κ) (keys : List κ) : List κ :=
  key :: (keys.filter fun k => !k == key).take (n - 1)

/-- Using a key does not make the list of used keys longer than it may be. -/
theorem length_touch_le {n : Nat} (hn : 0 < n) (key : κ) (keys : List κ) :
    (touch n key keys).length ≤ n := by
  rw [touch, List.length_cons, List.length_take]
  omega

theorem mem_touch_self (n : Nat) (key : κ) (keys : List κ) : key ∈ touch n key keys :=
  List.mem_cons_self

variable [LawfulBEq κ]

/-- A key that is there already makes room for itself. -/
theorem touch_of_mem {n : Nat} {keys : List κ} (hlen : keys.length ≤ n) (hmem : key ∈ keys) :
    touch n key keys = key :: keys.filter fun k => !k == key := by
  have hlt : (keys.filter fun k => !k == key).length < keys.length :=
    List.length_filter_lt_length_iff_exists.2 ⟨key, hmem, by simp⟩
  rw [touch, List.take_of_length_le (by omega)]

/-- Without repetitions one key at most is left out, and so a place more than enough is looked
at. -/
theorem take_filter_take {keys : List κ} (hnd : keys.Nodup) (n : Nat) (key : κ) :
    ((keys.take n).filter fun k => !k == key).take (n - 1)
      = (keys.filter fun k => !k == key).take (n - 1) := by
  induction keys generalizing n with
  | nil => simp
  | cons a keys ih =>
    obtain ⟨ha, hnd⟩ := List.nodup_cons.1 hnd
    cases n with
    | zero => rfl
    | succ n =>
      rw [List.take_succ_cons, Nat.add_sub_cancel]
      by_cases hk : a = key
      · -- the key itself is left out, and no other place
        subst hk
        have hall : ∀ k ∈ keys, (!k == a) = true := by
          intro k hk
          have hne : k ≠ a := fun h => ha (h ▸ hk)
          simp [hne]
        have hfront : ((keys.take n).filter fun k => !k == a) = keys.take n :=
          List.filter_eq_self.2 fun k hk => hall k (List.mem_of_mem_take hk)
        have hwhole : (keys.filter fun k => !k == a) = keys := List.filter_eq_self.2 hall
        rw [List.filter_cons_of_neg (by simp), List.filter_cons_of_neg (by simp), hfront, hwhole,
          List.take_take, Nat.min_self]
      · rw [List.filter_cons_of_pos (by simp [hk]), List.filter_cons_of_pos (by simp [hk])]
        cases n with
        | zero => rfl
        | succ m =>
          have h := ih hnd (m + 1)
          rw [Nat.add_sub_cancel] at h
          rw [List.take_succ_cons, List.take_succ_cons, h]

/-- **The keys used last stay the keys used last**: moving a key to the front of the `n` that were
used last gives those that are used last when that key is used once more. -/
theorem touch_take_eraseDups {n : Nat} (hn : 0 < n) (key : κ) (uses : List κ) :
    touch n key (uses.eraseDups.take n) = (key :: uses).eraseDups.take n := by
  obtain ⟨m, rfl⟩ : ∃ m, n = m + 1 := ⟨n - 1, by omega⟩
  rw [touch, take_filter_take (nodup_eraseDups uses), eraseDups_cons_eq, List.take_succ_cons,
    Nat.add_sub_cancel]

/-- **A key is among the `n` used last exactly when fewer than `n` others were used since.** -/
theorem mem_take_eraseDups_iff {n : Nat} {since before : List κ} (h : key ∉ since) :
    key ∈ (since ++ key :: before).eraseDups.take n ↔ since.eraseDups.length < n := by
  have hkey : (key :: before).removeAll since = key :: before.removeAll since := by
    simp [List.removeAll, h]
  rw [List.eraseDups_append, hkey, eraseDups_cons_eq]
  have hout : key ∉ since.eraseDups := fun hk => h (List.mem_eraseDups.1 hk)
  constructor
  · intro hmem
    apply Nat.lt_of_not_le
    intro hle
    rw [List.take_append_of_le_length hle] at hmem
    exact hout (List.mem_of_mem_take hmem)
  · intro hlt
    obtain ⟨m, hm⟩ : ∃ m, n - since.eraseDups.length = m + 1 :=
      ⟨n - since.eraseDups.length - 1, by omega⟩
    rw [List.take_append, hm, List.take_succ_cons]
    simp

/-! ## Keys that may have been dropped -/

/-- Moving a key to the front keeps the order of the others. -/
theorem touch_sublist {n : Nat} {keys uses : List κ} (h : keys <+ uses.eraseDups) :
    touch n key keys <+ (key :: uses).eraseDups := by
  rw [touch, eraseDups_cons_eq]
  exact ((List.take_sublist _ _).trans (h.filter _)).cons_cons key

/-- What stands among the first members of a list stands among the first of a part of it. -/
theorem mem_take_of_sublist {α : Type} {a : α} {xs ys : List α} {m : Nat} (hsub : xs <+ ys)
    (hnd : ys.Nodup) (hx : a ∈ xs) (hy : a ∈ ys.take m) : a ∈ xs.take m := by
  rw [← List.take_append_drop m ys] at hsub hnd
  obtain ⟨front, back, rfl, hfront, hback⟩ := List.sublist_append_iff.1 hsub
  -- `front` is what is left of the first members
  have hlen : front.length ≤ m := by
    have h := hfront.length_le
    rw [List.length_take] at h
    omega
  have hin : a ∈ front := by
    rcases List.mem_append.1 hx with hin | hin
    · exact hin
    · exact absurd rfl ((List.nodup_append.1 hnd).2.2 a hy a (hback.subset hin))
  rw [List.take_append, List.mem_append, List.take_of_length_le hlen]
  exact Or.inl hin

/-- **A key among those used last is not dropped**, even if others were dropped meanwhile. -/
theorem mem_touch_of_mem {n : Nat} {k : κ} {keys uses : List κ} (hn : 0 < n)
    (hsub : keys <+ uses.eraseDups) (hne : k ≠ key)
    (hmem : k ∈ uses.eraseDups.take n → k ∈ keys)
    (hk : k ∈ (key :: uses).eraseDups.take n) : k ∈ touch n key keys := by
  have hnd := nodup_eraseDups uses
  rw [← touch_take_eraseDups hn, touch, take_filter_take hnd] at hk
  have hlast : k ∈ (uses.eraseDups.filter fun k => !k == key).take (n - 1) := by
    rcases List.mem_cons.1 hk with h | h
    · exact absurd h hne
    · exact h
  -- the key was among those used last before, and so it was there
  have hkeys : k ∈ keys := by
    apply hmem
    rw [← take_filter_take hnd] at hlast
    exact (List.mem_filter.1 (List.mem_of_mem_take hlast)).1
  refine List.mem_cons_of_mem _ (mem_take_of_sublist (hsub.filter _) (hnd.filter _) ?_ hlast)
  exact List.mem_filter.2 ⟨hkeys, by simp [hne]⟩

end IgnoreRules.Recency

namespace IgnoreRules.Cache

open Recency (touch)

variable {κ ν : Type} {c : Cache κ ν} {key : κ} {v : ν} {n : Nat}

/-! ## The keys of a cache -/

/-- The keys of a cache, the latest used first. -/
def keys (c : Cache κ ν) : List κ := c.entries.map Prod.fst

theorem length_keys (c : Cache κ ν) : c.keys.length = c.size := List.length_map Prod.fst

@[simp] theorem keys_miss (c : Cache κ ν) : c.miss.keys = c.keys := rfl

variable [BEq κ]

/-- The other entries have the other keys. -/
theorem keys_others (c : Cache κ ν) (key : κ) :
    (c.others key).map Prod.fst = c.keys.filter fun k => !k == key := by
  rw [others, keys, List.filter_map]
  rfl

theorem keys_invalidate (c : Cache κ ν) (key : κ) :
    (c.invalidate key).2.keys = c.keys.filter fun k => !k == key := keys_others c key

/-- The cache contains a key if it holds one that counts as the same. -/
theorem contains_iff_exists_same :
    c.contains key = true ↔ ∃ k ∈ c.keys, (key == k) = true := by
  rw [contains, find?, List.lookup_isSome_iff, keys]
  simp

/-- With keys that count as the same only if they are, this is being one of the keys. -/
theorem contains_iff [LawfulBEq κ] : c.contains key = true ↔ key ∈ c.keys := by
  rw [contains_iff_exists_same]
  simp

/-- What is found under a key is one of the entries. -/
theorem mem_entries_of_find? [LawfulBEq κ] (h : c.find? key = some v) : (key, v) ∈ c.entries := by
  obtain ⟨front, back, hsplit, -⟩ := List.lookup_eq_some_iff.1 h
  rw [hsplit]
  simp

/-- Every key has a value. -/
theorem exists_find?_of_mem [LawfulBEq κ] (h : key ∈ c.keys) : ∃ v, c.find? key = some v :=
  Option.isSome_iff_exists.1 (contains_iff.2 h)

theorem find?_eq_none_of_not_mem [LawfulBEq κ] (h : key ∉ c.keys) : c.find? key = none := by
  cases hf : c.find? key with
  | none => rfl
  | some v => exact absurd (contains_iff.1 (by rw [contains, hf]; rfl)) h

/-! ## Asking -/

/-- A key that is there is found, and moved to the front. -/
theorem get_of_find? (he : c.enabled = true) (h : c.find? key = some v) :
    c.get key
      = (some v, { c with entries := (key, v) :: c.others key, hits := c.hits + 1 }) := by
  simp only [get, he, if_true, h]

/-- A key that is not there is not found, and only the question is counted. -/
theorem get_of_find?_eq_none (h : c.find? key = none) : c.get key = (none, c.miss) := by
  simp only [get, h, ite_self]

/-- Looking up what is no key is a miss, and changes nothing else. -/
theorem get_of_not_mem [LawfulBEq κ] (h : key ∉ c.keys) : c.get key = (none, c.miss) :=
  get_of_find?_eq_none (find?_eq_none_of_not_mem h)

/-- What a question is answered with is one of the entries. -/
theorem mem_entries_of_get [LawfulBEq κ] (h : (c.get key).1 = some v) : (key, v) ∈ c.entries := by
  rw [get] at h
  split at h
  · next w hw =>
    split at hw
    · exact mem_entries_of_find? (hw.trans h)
    · cases hw
  · cases h

/-- Asking brings no entry that was not there. -/
theorem mem_of_mem_entries_get [LawfulBEq κ] {e : κ × ν} (h : e ∈ (c.get key).2.entries) :
    e ∈ c.entries := by
  rw [get] at h
  split at h
  · next w hw =>
    split at hw
    · rcases List.mem_cons.1 h with rfl | h
      · exact mem_entries_of_find? hw
      · exact (List.mem_filter.1 h).1
    · cases hw
  · exact h

@[simp] theorem capacity_get (c : Cache κ ν) (key : κ) :
    (c.get key).2.capacity = c.capacity := by
  rw [get]
  split <;> rfl

@[simp] theorem enabled_get (c : Cache κ ν) (key : κ) : (c.get key).2.enabled = c.enabled := by
  rw [get]
  split <;> rfl

/-- **Finding a key touches it.** -/
theorem keys_get_of_mem [LawfulBEq κ] (he : c.enabled = true) (hlen : c.keys.length ≤ n)
    (h : key ∈ c.keys) : (c.get key).2.keys = touch n key c.keys := by
  obtain ⟨v, hv⟩ := exists_find?_of_mem h
  rw [get_of_find? he hv, Recency.touch_of_mem hlen h]
  show key :: (c.others key).map Prod.fst = _
  rw [keys_others]

/-- Finding a key does not change how many entries there are. -/
theorem size_get_of_mem [LawfulBEq κ] (he : c.enabled = true) (hnd : c.keys.Nodup)
    (h : key ∈ c.keys) : (c.get key).2.size = c.size := by
  obtain ⟨v, hv⟩ := exists_find?_of_mem h
  rw [get_of_find? he hv, ← length_keys, ← length_keys, ← Recency.length_filter_of_mem hnd h,
    ← keys_others]
  rfl

/-! ## Writing -/

/-- A cache that is switched off takes no entry. -/
theorem put_of_disabled (he : c.enabled = false) (key : κ) (v : ν) : c.put key v = c := by
  rw [put, if_neg (by simp [he])]

/-- Writing keeps no other entry under the key. -/
theorem mem_entries_put [LawfulBEq κ] (he : c.enabled = true) {e : κ × ν}
    (h : e ∈ (c.put key v).entries) : e = (key, v) ∨ e ∈ c.entries ∧ e.1 ≠ key := by
  rw [put, if_pos he] at h
  rcases List.mem_cons.1 h with h | h
  · exact Or.inl h
  · have hout : e ∈ c.others key := by
      cases hc : c.capacity with
      | unbounded =>
        rw [hc] at h
        exact h
      | atMost n pos =>
        rw [hc] at h
        exact List.mem_of_mem_take h
    obtain ⟨hmem, hne⟩ := List.mem_filter.1 hout
    exact Or.inr ⟨hmem, by simpa using hne⟩

@[simp] theorem capacity_put (c : Cache κ ν) (key : κ) (v : ν) :
    (c.put key v).capacity = c.capacity := by
  rw [put]
  split <;> rfl

@[simp] theorem enabled_put (c : Cache κ ν) (key : κ) (v : ν) :
    (c.put key v).enabled = c.enabled := by
  rw [put]
  split <;> rfl

@[simp] theorem hits_put (c : Cache κ ν) (key : κ) (v : ν) : (c.put key v).hits = c.hits := by
  rw [put]
  split <;> rfl

@[simp] theorem misses_put (c : Cache κ ν) (key : κ) (v : ν) :
    (c.put key v).misses = c.misses := by
  rw [put]
  split <;> rfl

/-- Where a key is not there, all entries are those of others. -/
theorem others_of_not_mem [LawfulBEq κ] (h : key ∉ c.keys) : c.others key = c.entries := by
  apply List.filter_eq_self.2
  intro e he
  have hne : e.1 ≠ key := fun hk => h (List.mem_map.2 ⟨e, he, hk⟩)
  simpa using hne

/-- **Every entry that is dropped to make room is counted.** -/
theorem evictions_put_add_size (he : c.enabled = true) (key : κ) (v : ν) :
    (c.put key v).evictions + (c.put key v).size = c.evictions + (c.others key).length + 1 := by
  have hle : (c.capacity.makeRoom (c.others key)).length ≤ (c.others key).length := by
    cases c.capacity with
    | unbounded => exact Nat.le_refl _
    | atMost n pos =>
      rw [Capacity.makeRoom_atMost, List.length_take]
      exact Nat.min_le_right _ _
  rw [put, if_pos he]
  show c.evictions + ((c.others key).length - (c.capacity.makeRoom (c.others key)).length) +
    ((c.capacity.makeRoom (c.others key)).length + 1) = _
  omega

/-- A new key makes the cache larger, or drives an entry out. -/
theorem evictions_put_add_size_of_not_mem [LawfulBEq κ] (he : c.enabled = true)
    (h : key ∉ c.keys) :
    (c.put key v).evictions + (c.put key v).size = c.evictions + c.size + 1 := by
  rw [evictions_put_add_size he, others_of_not_mem h]
  rfl

/-- **Writing a key touches it.** -/
theorem keys_put (he : c.enabled = true) {pos : 0 < n} (hc : c.capacity = .atMost n pos)
    (key : κ) (v : ν) : (c.put key v).keys = touch n key c.keys := by
  rw [put, if_pos he, hc, touch, ← keys_others, ← List.map_take]
  rfl

end IgnoreRules.Cache
