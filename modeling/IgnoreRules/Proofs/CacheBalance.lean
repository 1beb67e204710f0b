/-
# The balance of a cache

Every entry of a cache was added once, and it is still there or was dropped in one of three ways: to
make room, on demand, or with all others.  So what a cache counts and how many entries it has can be
told from what was done to it.

* `Tally` : what is counted of the operations done to a cache;
* `length_others_add` : leaving out a key that is there leaves out one entry;
* `Balanced.step` : every operation keeps the counters true to the tally;
* `bookkeeping_balances` : entries and counters after any operations.

Values play no part in this, and null is one like any other.
-/
import IgnoreRules.Cache.Options
import IgnoreRules.Proofs.CacheHistory
import IgnoreRules.Proofs.SameKeys

namespace IgnoreRules.Cache

variable {κ ν : Type} [BEq κ] {c : Cache κ ν} {key : κ} {n : Nat}

/-! ## Counting operations -/

/-- What is counted of the operations done to a cache. -/
structure Tally where
  /-- Questions. -/
  asked : Nat
  /-- Questions for a key that was there. -/
  found : Nat
  /-- Keys that were dropped on demand, as was answered. -/
  removed : Nat
  /-- Entries that were dropped with all others. -/
  cleared : Nat
  /-- Keys that were written and not there, in a cache that was switched on. -/
  added : Nat
deriving DecidableEq

namespace Tally

/-- Nothing was counted yet. -/
def zero : Tally := ⟨0, 0, 0, 0, 0⟩

/-- Counts an operation, which is about to be done to the cache. -/
def count (t : Tally) (c : Cache κ ν) : Op κ ν → Tally
  | .set key _ => { t with added := t.added + (c.enabled && !c.contains key).toNat }
  | .get key => { t with asked := t.asked + 1, found := t.found + (c.contains key).toNat }
  | .contains _ => t
  | .len => t
  | .invalidate key => { t with removed := t.removed + (c.invalidate key).1.toNat }
  | .clear => { t with cleared := t.cleared + c.size }

/-- Counts operations that are done one after the other, the first of them to the cache. -/
def countAll (t : Tally) (c : Cache κ ν) : List (Op κ ν) → Tally
  | [] => t
  | op :: ops => countAll (t.count c op) (op.apply c).2 ops

end Tally

/-! ## Keys that are there once -/

/-- No two keys of the cache are the same. -/
def Distinct (c : Cache κ ν) : Prop := c.keys.Pairwise fun a b => (a == b) = false

variable [PartialEquivBEq κ]

/-- **One entry is that of a key that is there, and all others are those of other keys.** -/
theorem length_others_add (hd : c.Distinct) (key : κ) :
    (c.others key).length + (c.contains key).toNat = c.size := by
  have hlength : (c.others key).length = (c.keys.filter fun k => !k == key).length := by
    rw [← keys_others, List.length_map]
  rw [hlength, ← length_keys]
  cases h : c.contains key with
  | true => exact Recency.length_filter_of_same hd (contains_iff_exists_same.1 h)
  | false =>
    have hall : ∀ k ∈ c.keys, (!k == key) = true := by
      intro k hk
      rw [Bool.not_eq_true', Bool.eq_false_iff]
      intro hsame
      have hthere := contains_iff_exists_same.2 ⟨k, hk, BEq.symm hsame⟩
      rw [h] at hthere
      cases hthere
    rw [List.filter_eq_self.2 hall]
    rfl

/-- A key in front of those of all other entries is there once. -/
theorem pairwise_cons_others (hd : c.Distinct) (key : κ) :
    (key :: (c.others key).map Prod.fst).Pairwise fun a b => (a == b) = false := by
  rw [keys_others]
  refine List.pairwise_cons.2 ⟨?_, hd.filter _⟩
  intro k hk
  have hne : (k == key) = false := by simpa using (List.mem_filter.1 hk).2
  exact BEq.symm_false hne

/-! ## The balance -/

/-- What holds of a cache for `n` entries, switched on or not, and of what was counted of the
operations done to it. -/
structure Balanced (n : Nat) (on : Bool) (c : Cache κ ν) (t : Tally) : Prop where
  capacity : ∃ pos, c.capacity = .atMost n pos
  enabled : c.enabled = on
  distinct : c.Distinct
  fits : c.size ≤ n
  asked : c.hits + c.misses = t.asked
  found : c.hits = t.found
  /-- Every entry that was added is there, made room, or was dropped on demand or with all. -/
  flow : c.size + c.evictions + t.removed + t.cleared = t.added
  /-- A cache that is switched off never had an entry. -/
  off : on = false → c.entries = [] ∧ c.hits = 0 ∧ c.evictions = 0

namespace Balanced

variable {on : Bool} {t : Tally}

section

omit [PartialEquivBEq κ]

theorem start (pos : 0 < n) (on : Bool) :
    Balanced n on (.empty (.atMost n pos) on : Cache κ ν) .zero where
  capacity := ⟨pos, rfl⟩
  enabled := rfl
  distinct := List.Pairwise.nil
  fits := Nat.zero_le n
  asked := rfl
  found := rfl
  flow := rfl
  off := fun _ => ⟨rfl, rfl, rfl⟩

/-- Where a key is there, the cache is switched on. -/
theorem on_of_contains (h : Balanced n on c t) (hc : c.contains key = true) : on = true := by
  rw [← Bool.not_eq_false]
  intro hoff
  obtain ⟨k, hk, -⟩ := contains_iff_exists_same.1 hc
  rw [keys, (h.off hoff).1] at hk
  cases hk

/-- Dropping everything. -/
theorem clear (h : Balanced n on c t) : Balanced n on c.clear (t.count c (.clear : Op κ ν)) where
  capacity := h.capacity
  enabled := h.enabled
  distinct := List.Pairwise.nil
  fits := Nat.zero_le n
  asked := h.asked
  found := h.found
  flow := by
    have hflow := h.flow
    show 0 + c.evictions + t.removed + (t.cleared + c.size) = t.added
    omega
  off := fun hoff => ⟨rfl, (h.off hoff).2⟩

end

/-- Asking for a key that is there. -/
theorem get_of_contains (h : Balanced n on c t) (hc : c.contains key = true) :
    Balanced n on (c.get key).2 (t.count c (.get key : Op κ ν)) := by
  have hon : c.enabled = true := h.enabled.trans (h.on_of_contains hc)
  obtain ⟨v, hv⟩ := Option.isSome_iff_exists.1 hc
  -- the entry of the key moves to the front, and so there are as many as before
  have hsize : ((key, v) :: c.others key).length = c.size := by
    rw [List.length_cons, ← length_others_add h.distinct key, hc]
    rfl
  have hasked := h.asked
  have hfound := h.found
  rw [get_of_find? hon hv]
  refine ⟨h.capacity, h.enabled, pairwise_cons_others h.distinct key, ?_, ?_, ?_, ?_, ?_⟩
  · exact Nat.le_trans (Nat.le_of_eq hsize) h.fits
  · show c.hits + 1 + c.misses = t.asked + 1
    omega
  · show c.hits + 1 = t.found + (c.contains key).toNat
    rw [hc, hfound]
    rfl
  · show ((key, v) :: c.others key).length + c.evictions + t.removed + t.cleared = t.added
    rw [hsize]
    exact h.flow
  · intro hoff
    rw [h.on_of_contains hc] at hoff
    cases hoff

omit [PartialEquivBEq κ] in
/-- Asking for a key that is not there. -/
theorem get_of_not_contains (h : Balanced n on c t) (hc : c.contains key = false) :
    Balanced n on (c.get key).2 (t.count c (.get key : Op κ ν)) := by
  have hnone : c.find? key = none := Option.isNone_iff_eq_none.1 (by simpa [contains] using hc)
  have hasked := h.asked
  rw [get_of_find?_eq_none hnone]
  refine ⟨h.capacity, h.enabled, h.distinct, h.fits, ?_, ?_, h.flow, h.off⟩
  · show c.hits + (c.misses + 1) = t.asked + 1
    omega
  · show c.hits = t.found + (c.contains key).toNat
    rw [hc]
    exact h.found

/-- Writing a key. -/
theorem put (h : Balanced n on c t) (key : κ) (v : ν) :
    Balanced n on (c.put key v) (t.count c (.set key v)) := by
  cases hon : c.enabled with
  | false =>
    rw [put_of_disabled hon]
    refine ⟨h.capacity, h.enabled, h.distinct, h.fits, h.asked, h.found, ?_, h.off⟩
    show _ = t.added + (c.enabled && !c.contains key).toNat
    rw [hon]
    exact h.flow
  | true =>
    obtain ⟨pos, hcap⟩ := h.capacity
    have hkeys : (c.put key v).keys = Recency.touch n key c.keys := keys_put hon hcap key v
    refine ⟨⟨pos, (capacity_put ..).trans hcap⟩, (enabled_put ..).trans h.enabled,
      ?_, ?_, ?_, ?_, ?_, ?_⟩
    · rw [Distinct, hkeys, Recency.touch, ← keys_others]
      exact (pairwise_cons_others h.distinct key).sublist
        ((List.take_sublist _ _).cons_cons key)
    · rw [← length_keys, hkeys]
      exact Recency.length_touch_le pos key _
    · rw [hits_put, misses_put]
      exact h.asked
    · rw [hits_put]
      exact h.found
    · have hsize := length_others_add h.distinct key
      have hdropped := evictions_put_add_size hon key v
      have hflow := h.flow
      -- the key was there, or it is counted as added
      have honce : (c.contains key).toNat + (!c.contains key).toNat = 1 := by
        cases c.contains key <;> rfl
      show _ + _ + t.removed + t.cleared = t.added + (c.enabled && !c.contains key).toNat
      rw [hon, Bool.true_and]
      omega
    · intro hoff
      rw [← h.enabled, hon] at hoff
      cases hoff

/-- Dropping a key. -/
theorem invalidate (h : Balanced n on c t) (key : κ) :
    Balanced n on (c.invalidate key).2 (t.count c (.invalidate key : Op κ ν)) := by
  have hsize := length_others_add h.distinct key
  have hfits := h.fits
  have hflow := h.flow
  refine ⟨h.capacity, h.enabled, (List.pairwise_cons.1 (pairwise_cons_others h.distinct key)).2,
    ?_, h.asked, h.found, ?_, ?_⟩
  · show (c.others key).length ≤ n
    omega
  · show (c.others key).length + c.evictions + (t.removed + (c.contains key).toNat) + t.cleared
      = t.added
    omega
  · intro hoff
    obtain ⟨hnone, hzero⟩ := h.off hoff
    refine ⟨?_, hzero⟩
    show c.entries.filter _ = []
    rw [hnone]
    rfl

/-- **Every operation keeps the balance.** -/
theorem step (h : Balanced n on c t) (op : Op κ ν) :
    Balanced n on (op.apply c).2 (t.count c op) := by
  cases op with
  | set key v => exact h.put key v
  | get key =>
    cases hc : c.contains key with
    | true => exact h.get_of_contains hc
    | false => exact h.get_of_not_contains hc
  | contains key => exact h
  | len => exact h
  | invalidate key => exact h.invalidate key
  | clear => exact h.clear

/-- Whatever is done, the balance is kept. -/
theorem run {s : History κ ν} (h : Balanced n on s.cache t) (ops : List (Op κ ν)) :
    Balanced n on (s.run ops).cache (t.countAll s.cache ops) := by
  induction ops generalizing s t with
  | nil => exact h
  | cons op ops ih => exact ih (h.step op)

end Balanced

/-! ## Entries and counters -/

omit [BEq κ] [PartialEquivBEq κ] in
/-- A positive integer makes a cache, which is switched on if the other value counts as true. -/
theorem ofOptions_of_int (pos : 0 < n) (enabled : Value) :
    ofOptions (.int n) enabled = .ok (.empty (.atMost n pos) enabled.isTrue : Cache κ ν) := by
  have hcapacity : capacityOf (.int n) = .ok (.atMost n pos) := dif_pos pos
  rw [ofOptions, hcapacity]
  rfl

/-- **The bookkeeping of a cache balances.**  A cache is made for a positive number of entries, and
is switched on or not.  After any operations, no two of its keys are the same, and it has no more
entries than that number.  Its hits and misses are as many as the questions, and its hits as many as
the questions for a key that was there.  The entries, those that made room, those that were dropped
on demand, and those that were dropped with all others are together as many as the keys that were
written while they were not there.  A cache that is switched off has no entry, and counts no hit and
no eviction. -/
theorem bookkeeping_balances (pos : 0 < n) (enabled : Value) (ops : List (Op κ ν)) :
    ∃ start : Cache κ ν, ofOptions (.int n) enabled = .ok start ∧
      start.enabled = enabled.isTrue ∧
      let c := ((⟨start, []⟩ : History κ ν).run ops).cache
      let t := Tally.zero.countAll start ops
      (c.keys.Pairwise fun a b => (a == b) = false) ∧
      c.size ≤ n ∧
      c.hits + c.misses = t.asked ∧
      c.hits = t.found ∧
      c.size + c.evictions + t.removed + t.cleared = t.added ∧
      (enabled.isTrue = false → c.size = 0 ∧ c.hits = 0 ∧ c.evictions = 0) := by
  refine ⟨.empty (.atMost n pos) enabled.isTrue, ofOptions_of_int pos enabled, rfl, ?_⟩
  intro c t
  have h : Balanced n enabled.isTrue c t :=
    Balanced.run (s := ⟨_, []⟩) (.start pos enabled.isTrue) ops
  refine ⟨h.distinct, h.fits, h.asked, h.found, h.flow, ?_⟩
  intro hoff
  obtain ⟨hnone, hzero⟩ := h.off hoff
  refine ⟨?_, hzero⟩
  rw [size, hnone]
  rfl

/-- Null under numbers, in a cache for two entries.  The truth value takes the place of the one,
which makes room for the three in its turn, and only after that it is missed. -/
theorem bookkeeping_balances_of_nulls :
    let one : ValueKey := ⟨.int 1⟩
    let two : ValueKey := ⟨.float (.ofRatio false 2 1)⟩
    let three : ValueKey := ⟨.int 3⟩
    let ops : List (Op ValueKey Value) :=
      [.set one .null, .set ⟨.bool true⟩ .null, .set two .null, .get two, .set three .null,
        .get one, .invalidate ⟨.int 2⟩, .invalidate ⟨.int 2⟩, .clear, .set one .null]
    ∃ start : Cache ValueKey Value, ofOptions (.int 2) (.bool true) = .ok start ∧
      Tally.zero.countAll start ops = ⟨2, 1, 1, 1, 4⟩ ∧
      let c := ((⟨start, []⟩ : History ValueKey Value).run ops).cache
      c.hits + c.misses = 2 ∧ c.hits = 1 ∧ c.size + c.evictions + 1 + 1 = 4 ∧ c.size = 1 := by
  intro one two three ops
  obtain ⟨start, hstart, -, -, -, hasked, hfound, hflow, -⟩ :=
    bookkeeping_balances Nat.two_pos (.bool true) ops
  obtain rfl : start = .empty (.atMost 2 Nat.two_pos) true :=
    Except.ok.inj (hstart.symm.trans (ofOptions_of_int Nat.two_pos (.bool true)))
  have htally : Tally.zero.countAll (.empty (.atMost 2 Nat.two_pos) true) ops
      = ⟨2, 1, 1, 1, 4⟩ := by
    decide +kernel
  rw [htally] at hasked hfound hflow
  exact ⟨_, hstart, htally, hasked, hfound, hflow, by decide +kernel⟩

end IgnoreRules.Cache
