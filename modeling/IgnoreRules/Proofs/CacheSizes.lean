/-
# Caches of different sizes

The same operations are done to two caches that start empty, and one of them has room for more
entries.  The larger cache holds whatever the smaller one holds, in the same order of recency, and
so it answers whatever the smaller one answers.

* `take_sublist_take` : what is left of two lists after their ends are cut off;
* `Covers.step` : every operation keeps the larger cache ahead;
* `larger_never_does_worse` : contents, answers and counters of the two caches after any operations.

A question may refresh a key in the larger cache alone, and dropping a key on demand may make room
in the larger cache alone.  What is kept through all of this is that the larger cache has at least
as many free places as the smaller one.
-/
import IgnoreRules.Proofs.CacheHistory
import Mathlib.Data.List.Forall2

namespace IgnoreRules.Cache

open scoped List

/-! ## Cutting off ends -/

/-- Where the longer list loses no more of its end than the shorter one, what is left of the
shorter list is still part of what is left of the longer one. -/
theorem take_sublist_take {α : Type} {xs ys : List α} {a b : Nat} (hsub : xs <+ ys)
    (hlen : ys.length + a ≤ xs.length + b) : xs.take a <+ ys.take b := by
  have hsplit : xs <+ ys.take b ++ ys.drop b := by
    rw [List.take_append_drop]
    exact hsub
  obtain ⟨front, back, rfl, hfront, hback⟩ := List.sublist_append_iff.1 hsplit
  by_cases hb : ys.length ≤ b
  · -- nothing of the longer list is lost
    rw [List.take_of_length_le hb]
    exact (List.take_sublist _ _).trans hsub
  · have hlost := hback.length_le
    rw [List.length_drop] at hlost
    rw [List.length_append] at hlen
    have hin : a ≤ front.length := by omega
    rw [List.take_append_of_le_length hin]
    exact (List.take_sublist _ _).trans hfront

variable {κ ν : Type} {c small large : Cache κ ν} {key : κ} {v : ν} {m n : Nat}

/-! ## Single caches -/

section

variable [BEq κ] [LawfulBEq κ]

/-- Where no key is there twice, every entry is found. -/
theorem find?_of_mem_entries (hnd : c.keys.Nodup) (h : (key, v) ∈ c.entries) :
    c.find? key = some v := by
  obtain ⟨front, back, hsplit⟩ := List.append_of_mem h
  have hkeys : c.keys = front.map Prod.fst ++ key :: back.map Prod.fst := by
    rw [keys, hsplit, List.map_append, List.map_cons]
  rw [hkeys, List.nodup_append] at hnd
  rw [find?, List.lookup_eq_some_iff]
  refine ⟨front, back, hsplit, ?_⟩
  intro e he
  have hne : e.1 ≠ key := hnd.2.2 e.1 (List.mem_map_of_mem he) key List.mem_cons_self
  simpa using Ne.symm hne

/-- The entries of all other keys are one fewer if the key is there. -/
theorem length_others_of_mem (hnd : c.keys.Nodup) (h : key ∈ c.keys) :
    (c.others key).length + 1 = c.size := by
  have hlen := Recency.length_filter_of_mem hnd h
  rw [← keys_others, List.length_map, length_keys] at hlen
  exact hlen

/-- All entries are others than that of a key which is not there. -/
theorem length_others_of_not_mem (h : key ∉ c.keys) : (c.others key).length = c.size := by
  rw [others_of_not_mem h]
  rfl

/-- A question is answered with what is found. -/
theorem get_fst (he : c.enabled = true) (key : κ) : (c.get key).1 = c.find? key := by
  by_cases hk : key ∈ c.keys
  · obtain ⟨v, hv⟩ := exists_find?_of_mem hk
    rw [get_of_find? he hv, hv]
  · rw [get_of_not_mem hk, find?_eq_none_of_not_mem hk]

end

/-! ## Two caches -/

/-- What holds of a cache for `m` entries and another one for `n`, to which the same was done. -/
structure Covers (m n : Nat) (small large : Cache κ ν) : Prop where
  /-- The larger cache holds the same entries in the same order, and others between them. -/
  entries : small.entries <+ large.entries
  /-- The larger cache has at least as many free places. -/
  room : large.size + m ≤ small.size + n
  hits : small.hits ≤ large.hits
  evictions : large.evictions ≤ small.evictions

namespace Covers

theorem start (hle : m ≤ n) {p q : Capacity} :
    Covers m n (empty p true : Cache κ ν) (empty q true) where
  entries := List.Sublist.refl []
  room := by
    show 0 + m ≤ 0 + n
    omega
  hits := Nat.le_refl 0
  evictions := Nat.le_refl 0

/-- The larger cache holds the keys of the smaller one, in the same order. -/
theorem keys (h : Covers m n small large) : small.keys <+ large.keys := h.entries.map Prod.fst

/-- Dropping everything. -/
theorem clear (h : Covers m n small large) (hle : m ≤ n) :
    Covers m n small.clear large.clear where
  entries := List.Sublist.refl []
  room := by
    show 0 + m ≤ 0 + n
    omega
  hits := h.hits
  evictions := h.evictions

variable [BEq κ]

theorem others (h : Covers m n small large) (key : κ) : small.others key <+ large.others key :=
  h.entries.filter _

variable [LawfulBEq κ]

/-- What is found in the smaller cache is found in the larger one. -/
theorem find? (h : Covers m n small large) (hnd : large.keys.Nodup)
    (hv : small.find? key = some v) : large.find? key = some v :=
  find?_of_mem_entries hnd (h.entries.subset (mem_entries_of_find? hv))

/-- Leaving out one key keeps the larger cache ahead in free places. -/
theorem room_others (h : Covers m n small large) (hsmall : small.keys.Nodup)
    (hlarge : large.keys.Nodup) (key : κ) :
    (large.others key).length + m ≤ (small.others key).length + n := by
  have hroom := h.room
  by_cases hks : key ∈ small.keys
  · have hs := length_others_of_mem hsmall hks
    have hl := length_others_of_mem hlarge (h.keys.subset hks)
    omega
  · have hs := length_others_of_not_mem hks
    by_cases hkl : key ∈ large.keys
    · -- only the larger cache gains a place
      have hl := length_others_of_mem hlarge hkl
      omega
    · have hl := length_others_of_not_mem hkl
      omega

/-- Writing a key. -/
theorem put (h : Covers m n small large) (hsmall : small.keys.Nodup) (hlarge : large.keys.Nodup)
    (hes : small.enabled = true) (hel : large.enabled = true) {p : 0 < m} {q : 0 < n}
    (hcs : small.capacity = .atMost m p) (hcl : large.capacity = .atMost n q) (key : κ) (v : ν) :
    Covers m n (small.put key v) (large.put key v) := by
  have hroom := h.room_others hsmall hlarge key
  have hlen := (h.others key).length_le
  have hev := h.evictions
  rw [Cache.put, if_pos hes, hcs, Cache.put, if_pos hel, hcl]
  refine ⟨?_, ?_, h.hits, ?_⟩
  · exact (take_sublist_take (h.others key) (by omega)).cons_cons (key, v)
  · show ((large.others key).take (n - 1)).length + 1 + m
      ≤ ((small.others key).take (m - 1)).length + 1 + n
    rw [List.length_take, List.length_take]
    omega
  · show large.evictions + ((large.others key).length - ((large.others key).take (n - 1)).length)
      ≤ small.evictions + ((small.others key).length - ((small.others key).take (m - 1)).length)
    rw [List.length_take, List.length_take]
    omega

/-- Asking for a key. -/
theorem get (h : Covers m n small large) (hsmall : small.keys.Nodup) (hlarge : large.keys.Nodup)
    (hes : small.enabled = true) (hel : large.enabled = true) (key : κ) :
    Covers m n (small.get key).2 (large.get key).2 := by
  have hroom := h.room
  have hhits := h.hits
  by_cases hks : key ∈ small.keys
  · -- both caches find the key, and move it to the front
    obtain ⟨v, hv⟩ := exists_find?_of_mem hks
    have hsize := size_get_of_mem hes hsmall hks
    have hsize' := size_get_of_mem hel hlarge (h.keys.subset hks)
    rw [get_of_find? hes hv] at hsize ⊢
    rw [get_of_find? hel (h.find? hlarge hv)] at hsize' ⊢
    refine ⟨(h.others key).cons_cons (key, v), ?_, Nat.succ_le_succ hhits, h.evictions⟩
    rw [hsize, hsize']
    exact hroom
  · rw [get_of_not_mem hks]
    by_cases hkl : key ∈ large.keys
    · -- only the larger cache finds it; what the smaller one holds is not moved
      obtain ⟨w, hw⟩ := exists_find?_of_mem hkl
      have hsize := size_get_of_mem hel hlarge hkl
      rw [get_of_find? hel hw] at hsize ⊢
      have hrest : small.entries <+ large.others key := by
        rw [← others_of_not_mem hks]
        exact h.others key
      refine ⟨hrest.cons (key, w), ?_, Nat.le_succ_of_le hhits, h.evictions⟩
      rw [hsize]
      exact hroom
    · rw [get_of_not_mem hkl]
      exact ⟨h.entries, hroom, hhits, h.evictions⟩

/-- Dropping a key. -/
theorem invalidate (h : Covers m n small large) (hsmall : small.keys.Nodup)
    (hlarge : large.keys.Nodup) (key : κ) :
    Covers m n (small.invalidate key).2 (large.invalidate key).2 :=
  ⟨h.others key, h.room_others hsmall hlarge key, h.hits, h.evictions⟩

end Covers

/-! ## Two histories -/

/-- Two events of the same operation, the second of which answers every question that the first
one answers, with the same value. -/
def Event.AnsweredBy (e d : Event κ ν) : Prop :=
  e.op = d.op ∧ ∀ v, e.answer = .value (some v) → d.answer = .value (some v)

/-- What holds of the histories of a cache for `m` entries and a larger one for `n`. -/
structure Ahead [BEq κ] (m n : Nat) (s l : History κ ν) : Prop where
  small : Sound m s
  large : Sound n l
  covers : Covers m n s.cache l.cache
  answers : List.Forall₂ Event.AnsweredBy s.events l.events

variable [BEq κ] [LawfulBEq κ]

/-- No key is held twice. -/
theorem Sound.keys_nodup {h : History κ ν} (hs : Sound n h) : h.cache.keys.Nodup :=
  hs.order.nodup (Recency.nodup_eraseDups _)

namespace Ahead

variable {s l : History κ ν}

omit [LawfulBEq κ] in
theorem start (pos : 0 < m) (hle : m ≤ n) :
    Ahead m n (.start (.atMost m pos) true : History κ ν)
      (.start (.atMost n (Nat.lt_of_lt_of_le pos hle)) true) where
  small := .start pos
  large := .start _
  covers := .start hle
  answers := .nil

/-- **Every operation keeps the larger cache ahead.** -/
theorem step (h : Ahead m n s l) (hle : m ≤ n) (op : Op κ ν) :
    Ahead m n (s.step op) (l.step op) := by
  obtain ⟨p, hcs⟩ := h.small.capacity
  obtain ⟨q, hcl⟩ := h.large.capacity
  have hes := h.small.enabled
  have hel := h.large.enabled
  have hns := h.small.keys_nodup
  have hnl := h.large.keys_nodup
  refine ⟨h.small.step op, h.large.step op, ?_, .cons ⟨rfl, ?_⟩ h.answers⟩
  · cases op with
    | set key v => exact h.covers.put hns hnl hes hel hcs hcl key v
    | get key => exact h.covers.get hns hnl hes hel key
    | contains key => exact h.covers
    | len => exact h.covers
    | invalidate key => exact h.covers.invalidate hns hnl key
    | clear => exact h.covers.clear hle
  · intro v hv
    cases op with
    | get key =>
      have hsmall : (s.cache.get key).1 = some v := Answer.value.inj hv
      rw [get_fst hes] at hsmall
      have hlarge : (l.cache.get key).1 = some v := by
        rw [get_fst hel]
        exact h.covers.find? hnl hsmall
      exact congrArg Answer.value hlarge
    | _ => cases hv

/-- Whatever is done, the larger cache stays ahead. -/
theorem run (h : Ahead m n s l) (hle : m ≤ n) (ops : List (Op κ ν)) :
    Ahead m n (s.run ops) (l.run ops) := by
  induction ops generalizing s l with
  | nil => exact h
  | cons op ops ih => exact ih (h.step hle op)

end Ahead

/-! ## Contents, answers and counters -/

/-- **A larger cache never does worse.**  The same operations are done to a cache for `m` entries
and to one for `n`, where `m` is no more than `n`, and both start empty.  After any operations the
entries of the smaller cache are entries of the larger one, in the same order of recency, and the
larger cache finds the same value under every key that the smaller one holds.  Every question that
the smaller cache answered was answered by the larger one with the same value; the larger cache
has answered no fewer of them, and has dropped no more entries to make room. -/
theorem larger_never_does_worse (pos : 0 < m) (hle : m ≤ n) (ops : List (Op κ ν)) :
    let small : History κ ν := (History.start (.atMost m pos) true).run ops
    let large : History κ ν :=
      (History.start (.atMost n (Nat.lt_of_lt_of_le pos hle)) true).run ops
    (small.cache.entries <+ large.cache.entries ∧ large.cache.keys.Nodup) ∧
    (∀ key v, small.cache.find? key = some v → large.cache.find? key = some v) ∧
    List.Forall₂ Event.AnsweredBy small.events large.events ∧
    small.cache.hits ≤ large.cache.hits ∧
    large.cache.evictions ≤ small.cache.evictions := by
  intro small large
  have h : Ahead m n small large := (Ahead.start pos hle).run hle ops
  have hnd := h.large.keys_nodup
  exact ⟨⟨h.covers.entries, hnd⟩, fun _ _ hv => h.covers.find? hnd hv, h.answers, h.covers.hits,
    h.covers.evictions⟩

/-- Caches for two and for three entries.  Asking for `a` refreshes it in the larger cache alone,
and dropping `c` on demand leaves the smaller one with a single entry; still all that it holds in
the end is held by the larger one. -/
theorem larger_never_does_worse_of_two_and_three :
    let ops : List (Op String Nat) :=
      [.set "a" 1, .set "b" 2, .set "c" 3, .get "a", .invalidate "c", .set "d" 4, .set "e" 5]
    let small : History String Nat := (History.start (.atMost 2 Nat.two_pos) true).run ops
    let large : History String Nat := (History.start (.atMost 3 (by decide)) true).run ops
    small.cache.entries = [("e", 5), ("d", 4)] ∧
      large.cache.entries = [("e", 5), ("d", 4), ("a", 1)] ∧
      small.cache.entries <+ large.cache.entries ∧
      large.cache.evictions ≤ small.cache.evictions := by
  intro ops small large
  have h := larger_never_does_worse (n := 3) Nat.two_pos (by decide) ops
  exact ⟨by decide, by decide, h.1.1, h.2.2.2.2⟩

end IgnoreRules.Cache
