/-
# The history of a cache

A history is a cache with everything that was done to it and what it answered.  Writing a key and
finding it are the uses of a key.  This module says from the history alone which keys are there
and what they hold.

* `History.run` does one operation after the other;
* `Sound.run` : whatever is done, the entries come from the history;
* `Exact.run` : as long as nothing is dropped on demand, the keys are those used last;
* `evicts_least_recently_used` : a key stays until enough others were used since its last use.
-/
import IgnoreRules.Proofs.Recency

namespace IgnoreRules.Cache

open scoped List
open Recency (touch touch_take_eraseDups mem_touch_self mem_touch_of_mem touch_sublist)

variable {κ ν : Type}

/-! ## Operations -/

/-- What can be done to a cache. -/
inductive Op (κ ν : Type) where
  | set (key : κ) (value : ν)
  | get (key : κ)
  | contains (key : κ)
  | len
  | invalidate (key : κ)
  | clear

/-- What a cache answers. -/
inductive Answer (ν : Type) where
  | done
  /-- The value that was asked for, if it is there. -/
  | value (v : Option ν)
  | truth (b : Bool)
  | count (n : Nat)

/-- The operation drops entries on demand. -/
def Op.isRemoval : Op κ ν → Bool
  | .invalidate _ | .clear => true
  | _ => false

/-- Does one operation, and gives the answer. -/
def Op.apply [BEq κ] (c : Cache κ ν) : Op κ ν → Answer ν × Cache κ ν
  | .set key v => (.done, c.put key v)
  | .get key => (.value (c.get key).1, (c.get key).2)
  | .contains key => (.truth (c.contains key), c)
  | .len => (.count c.size, c)
  | .invalidate key => (.truth (c.invalidate key).1, (c.invalidate key).2)
  | .clear => (.done, c.clear)

/-! ## Histories -/

/-- An operation that was done, with its answer. -/
structure Event (κ ν : Type) where
  op : Op κ ν
  answer : Answer ν

/-- A cache with what was done to it, the latest first. -/
structure History (κ ν : Type) where
  cache : Cache κ ν
  events : List (Event κ ν)

namespace History

/-- Nothing was done yet. -/
def start (capacity : Capacity) (enabled : Bool) : History κ ν := ⟨.empty capacity enabled, []⟩

variable [BEq κ]

/-- One more operation. -/
def step (h : History κ ν) (op : Op κ ν) : History κ ν :=
  ⟨(op.apply h.cache).2, ⟨op, (op.apply h.cache).1⟩ :: h.events⟩

/-- Operations one after the other. -/
def run (h : History κ ν) (ops : List (Op κ ν)) : History κ ν := ops.foldl step h

@[simp] theorem run_nil (h : History κ ν) : h.run [] = h := rfl

@[simp] theorem run_cons (h : History κ ν) (op : Op κ ν) (ops : List (Op κ ν)) :
    h.run (op :: ops) = (h.step op).run ops := rfl

end History

/-! ## What events say of a key -/

/-- The key that an event used: one that was written, or asked for and found. -/
def Event.used? : Event κ ν → Option κ
  | ⟨.set key _, _⟩ => some key
  | ⟨.get key, .value (some _)⟩ => some key
  | _ => none

variable [BEq κ]

/-- The value that an event wrote under a key. -/
def Event.written? (key : κ) : Event κ ν → Option ν
  | ⟨.set k v, _⟩ => if k == key then some v else none
  | _ => none

/-- The event dropped the key on demand, or would have done so. -/
def Event.removes (key : κ) : Event κ ν → Bool
  | ⟨.invalidate k, _⟩ => k == key
  | ⟨.clear, _⟩ => true
  | _ => false

/-- The value that was written last under a key. -/
def latest? (key : κ) (events : List (Event κ ν)) : Option ν :=
  events.findSome? fun e => e.written? key

/-- The key was written, and not dropped on demand since. -/
def Kept (key : κ) (events : List (Event κ ν)) : Prop :=
  ∃ since e before, events = since ++ e :: before ∧ (e.written? key).isSome ∧
    ∀ d ∈ since, d.removes key = false

/-- The keys that were used, the latest first. -/
def uses (events : List (Event κ ν)) : List κ := events.filterMap Event.used?

/-- The other keys that were used since a key was used last. -/
def othersSince (key : κ) (events : List (Event κ ν)) : List κ :=
  uses (events.takeWhile fun e => e.used? != some key)

/-- The latest value of a key was written by the last event, or before it. -/
theorem latest?_cons (key : κ) (e : Event κ ν) (events : List (Event κ ν)) :
    latest? key (e :: events) = (e.written? key).or (latest? key events) := by
  rw [latest?, List.findSome?_cons, latest?]
  cases e.written? key <;> rfl

/-- Before its last event, a key was kept unless that event wrote or dropped it. -/
theorem Kept.of_cons {key : κ} {e : Event κ ν} {events : List (Event κ ν)}
    (h : Kept key (e :: events)) (hw : e.written? key = none) :
    e.removes key = false ∧ Kept key events := by
  obtain ⟨since, d, before, hsplit, hd, hs⟩ := h
  cases since with
  | nil =>
    obtain ⟨rfl, -⟩ := List.cons.inj hsplit
    rw [hw] at hd
    cases hd
  | cons e' since =>
    obtain ⟨rfl, hrest⟩ := List.cons.inj hsplit
    exact ⟨hs e List.mem_cons_self, since, d, before, hrest, hd,
      fun d hd => hs d (List.mem_cons_of_mem e hd)⟩

/-- A key has a latest value only if some event wrote one. -/
theorem exists_written_of_latest? {key : κ} {v : ν} {events : List (Event κ ν)}
    (h : latest? key events = some v) : ∃ e ∈ events, (e.written? key).isSome := by
  obtain ⟨e, he, hw⟩ := List.exists_of_findSome?_eq_some h
  exact ⟨e, he, by rw [hw]; rfl⟩

section

variable [LawfulBEq κ]

/-- The uses of other keys come before the last use of a key. -/
theorem uses_eq_of_mem {key : κ} {events : List (Event κ ν)} (h : key ∈ uses events) :
    ∃ before, uses events = othersSince key events ++ key :: before ∧
      key ∉ othersSince key events := by
  induction events with
  | nil => cases h
  | cons e events ih =>
    by_cases he : e.used? = some key
    · refine ⟨uses events, ?_, ?_⟩
      · rw [othersSince, List.takeWhile_cons_of_neg (by simp [he]), uses,
          List.filterMap_cons_some he]
        rfl
      · rw [othersSince, List.takeWhile_cons_of_neg (by simp [he])]
        exact List.not_mem_nil
    · have hcons : othersSince key (e :: events)
          = e.used?.toList ++ othersSince key events := by
        rw [othersSince, List.takeWhile_cons_of_pos (by simpa using he), othersSince, uses, uses]
        cases hu : e.used? <;> simp [hu]
      have huses : uses (e :: events) = e.used?.toList ++ uses events := by
        rw [uses, uses]
        cases hu : e.used? <;> simp [hu]
      have hout : key ∉ e.used?.toList := by
        rw [Option.mem_toList]
        exact he
      rw [huses, List.mem_append] at h
      obtain ⟨before, hsplit, hnot⟩ := ih (h.resolve_left hout)
      refine ⟨before, ?_, ?_⟩
      · rw [huses, hcons, hsplit, List.append_assoc]
      · rw [hcons, List.mem_append]
        exact not_or.2 ⟨hout, hnot⟩

/-- A key is among the `n` used last if it was used, and fewer than `n` others since. -/
theorem mem_take_uses_iff {key : κ} {events : List (Event κ ν)} {n : Nat} :
    key ∈ (uses events).eraseDups.take n ↔
      key ∈ uses events ∧ (othersSince key events).eraseDups.length < n := by
  constructor
  · intro h
    have hmem : key ∈ uses events := List.mem_eraseDups.1 (List.mem_of_mem_take h)
    obtain ⟨before, hsplit, hnot⟩ := uses_eq_of_mem hmem
    rw [hsplit, Recency.mem_take_eraseDups_iff hnot] at h
    exact ⟨hmem, h⟩
  · rintro ⟨hmem, hlt⟩
    obtain ⟨before, hsplit, hnot⟩ := uses_eq_of_mem hmem
    rw [hsplit, Recency.mem_take_eraseDups_iff hnot]
    exact hlt

/-- Writing a key uses it. -/
theorem used?_of_written {key : κ} {e : Event κ ν} (h : (e.written? key).isSome) :
    e.used? = some key := by
  obtain ⟨op, answer⟩ := e
  cases op with
  | set k v =>
    by_cases hk : k = key
    · exact congrArg some hk
    · simp [Event.written?, hk] at h
  | _ => cases h

/-- Writing the value of a key uses the key. -/
theorem mem_uses_of_written {key : κ} {e : Event κ ν} {events : List (Event κ ν)}
    (he : e ∈ events) (h : (e.written? key).isSome) : key ∈ uses events :=
  List.mem_filterMap.2 ⟨e, he, used?_of_written h⟩

end

/-! ## Entries come from the history -/

/-- What holds of every history of a cache with room for `n` entries. -/
structure Sound (n : Nat) (h : History κ ν) : Prop where
  enabled : h.cache.enabled = true
  capacity : ∃ pos, h.cache.capacity = .atMost n pos
  fits : h.cache.keys.length ≤ n
  /-- The keys stand in the order of their last uses. -/
  order : h.cache.keys <+ (uses h.events).eraseDups
  /-- A key holds what was written last under it. -/
  values : ∀ e ∈ h.cache.entries, latest? e.1 h.events = some e.2
  /-- A key that was kept is there as long as it is among those used last. -/
  kept : ∀ key, Kept key h.events → key ∈ (uses h.events).eraseDups.take n → key ∈ h.cache.keys

theorem Sound.start {n : Nat} (pos : 0 < n) :
    Sound n (.start (.atMost n pos) true : History κ ν) where
  enabled := rfl
  capacity := ⟨pos, rfl⟩
  fits := Nat.zero_le n
  order := List.nil_sublist _
  values := by
    intro e he
    cases he
  kept := by
    rintro key ⟨since, e, before, hsplit, -⟩
    cases since <;> cases hsplit

variable {n : Nat} {h : History κ ν}

/-- An event that changes no entry, and uses, writes and drops no key. -/
theorem Sound.idle (hs : Sound n h) {e : Event κ ν} {c : Cache κ ν} (hused : e.used? = none)
    (hwritten : ∀ key, e.written? key = none) (hc : c.capacity = h.cache.capacity)
    (he : c.enabled = h.cache.enabled) (hentries : c.entries = h.cache.entries) :
    Sound n ⟨c, e :: h.events⟩ := by
  have hkeys : c.keys = h.cache.keys := congrArg (List.map Prod.fst) hentries
  have huses : uses (e :: h.events) = uses h.events := List.filterMap_cons_none hused
  refine ⟨he.trans hs.enabled, hc ▸ hs.capacity, ?_, ?_, ?_, ?_⟩
  · rw [hkeys]
    exact hs.fits
  · rw [hkeys, huses]
    exact hs.order
  · intro d hd
    rw [latest?_cons, hwritten, Option.none_or]
    exact hs.values d (hentries ▸ hd)
  · intro key hk
    rw [huses, hkeys]
    exact hs.kept key (hk.of_cons (hwritten key)).2

/-- Dropping everything. -/
theorem Sound.clear (hs : Sound n h) : Sound n (h.step .clear) := by
  refine ⟨hs.enabled, hs.capacity, Nat.zero_le n, List.nil_sublist _, ?_, ?_⟩
  · intro d hd
    cases hd
  · intro k hk
    have hremoved := (hk.of_cons rfl).1
    cases hremoved

variable [LawfulBEq κ]

/-- An event that touches one key. -/
theorem Sound.touch (hs : Sound n h) {e : Event κ ν} {c : Cache κ ν} (key : κ)
    (hused : e.used? = some key) (hwritten : ∀ k, k ≠ key → e.written? k = none)
    (hc : c.capacity = h.cache.capacity) (he : c.enabled = h.cache.enabled)
    (hkeys : c.keys = touch n key h.cache.keys)
    (hvalues : ∀ d ∈ c.entries, latest? d.1 (e :: h.events) = some d.2) :
    Sound n ⟨c, e :: h.events⟩ := by
  obtain ⟨pos, hcap⟩ := hs.capacity
  have huses : uses (e :: h.events) = key :: uses h.events := List.filterMap_cons_some hused
  refine ⟨he.trans hs.enabled, ⟨pos, hc.trans hcap⟩, ?_, ?_, hvalues, ?_⟩
  · rw [hkeys]
    exact Recency.length_touch_le pos key _
  · rw [hkeys, huses]
    exact touch_sublist hs.order
  · intro k hk hmem
    rw [hkeys]
    rw [huses] at hmem
    by_cases hne : k = key
    · rw [hne]
      exact mem_touch_self n key _
    · -- what was kept of the other keys before this event is still kept
      have hbefore := (hk.of_cons (hwritten k hne)).2
      exact mem_touch_of_mem pos hs.order hne (hs.kept k hbefore) hmem

/-- Writing a key. -/
theorem Sound.set (hs : Sound n h) (key : κ) (v : ν) : Sound n (h.step (.set key v)) := by
  obtain ⟨pos, hcap⟩ := hs.capacity
  refine hs.touch key rfl ?_ (capacity_put ..) (enabled_put ..)
    (keys_put hs.enabled hcap key v) ?_
  · intro k hk
    exact if_neg (by simpa using Ne.symm hk)
  · intro d hd
    rw [latest?_cons]
    rcases mem_entries_put hs.enabled hd with rfl | ⟨hd, hne⟩
    · simp [Event.written?]
    · simp [Event.written?, Ne.symm hne, hs.values d hd]

/-- Asking for a key. -/
theorem Sound.get (hs : Sound n h) (key : κ) : Sound n (h.step (.get key)) := by
  by_cases hk : key ∈ h.cache.keys
  · obtain ⟨v, hv⟩ := exists_find?_of_mem hk
    have hget := get_of_find? hs.enabled hv
    have hanswer : (h.cache.get key).1 = some v := by rw [hget]
    refine hs.touch key ?_ (fun _ _ => rfl) (capacity_get ..) (enabled_get ..)
      (keys_get_of_mem hs.enabled hs.fits hk) ?_
    · simp only [Op.apply, hanswer, Event.used?]
    · intro d hd
      rw [latest?_cons]
      exact hs.values d (mem_of_mem_entries_get hd)
  · have hmiss := get_of_not_mem hk
    rw [History.step, Op.apply, hmiss]
    exact hs.idle rfl (fun _ => rfl) rfl rfl rfl

/-- Dropping a key. -/
theorem Sound.invalidate (hs : Sound n h) (key : κ) : Sound n (h.step (.invalidate key)) := by
  have hkeys := keys_invalidate h.cache key
  refine ⟨hs.enabled, hs.capacity, ?_, ?_, ?_, ?_⟩
  · show (h.cache.invalidate key).2.keys.length ≤ n
    rw [hkeys]
    exact Nat.le_trans (List.length_filter_le _ _) hs.fits
  · show (h.cache.invalidate key).2.keys <+ _
    rw [hkeys]
    exact List.filter_sublist.trans hs.order
  · intro d hd
    exact hs.values d (List.mem_filter.1 hd).1
  · intro k hk hmem
    obtain ⟨hne, hbefore⟩ := hk.of_cons rfl
    show k ∈ (h.cache.invalidate key).2.keys
    rw [hkeys]
    have hne : key ≠ k := by simpa [Event.removes] using hne
    exact List.mem_filter.2 ⟨hs.kept k hbefore hmem, by simpa using Ne.symm hne⟩

/-- **Every operation keeps the entries true to the history.** -/
theorem Sound.step (hs : Sound n h) (op : Op κ ν) : Sound n (h.step op) := by
  cases op with
  | set key v => exact hs.set key v
  | get key => exact hs.get key
  | contains key => exact hs.idle rfl (fun _ => rfl) rfl rfl rfl
  | len => exact hs.idle rfl (fun _ => rfl) rfl rfl rfl
  | invalidate key => exact hs.invalidate key
  | clear => exact hs.clear

/-- Whatever is done, the entries come from the history. -/
theorem Sound.run (hs : Sound n h) (ops : List (Op κ ν)) : Sound n (h.run ops) := by
  induction ops generalizing h with
  | nil => exact hs
  | cons op ops ih => exact ih (hs.step op)

/-! ## Histories in which nothing is dropped on demand -/

/-- The keys are exactly the `n` used last. -/
def Exact (n : Nat) (h : History κ ν) : Prop := h.cache.keys = (uses h.events).eraseDups.take n

omit [LawfulBEq κ] in
/-- At the beginning no key was used, and none is held. -/
theorem Exact.start (pos : 0 < n) :
    Exact n (.start (.atMost n pos) true : History κ ν) := List.take_nil.symm

/-- **The keys stay exactly those used last** unless an operation drops some. -/
theorem Exact.step (hx : Exact n h) (hs : Sound n h) {op : Op κ ν} (hop : op.isRemoval = false) :
    Exact n (h.step op) := by
  obtain ⟨pos, hcap⟩ := hs.capacity
  cases op with
  | set key v =>
    show (h.cache.put key v).keys = (key :: uses h.events).eraseDups.take n
    rw [keys_put hs.enabled hcap, hx, touch_take_eraseDups pos]
  | get key =>
    by_cases hk : key ∈ h.cache.keys
    · obtain ⟨v, hv⟩ := exists_find?_of_mem hk
      have hanswer : (h.cache.get key).1 = some v := by rw [get_of_find? hs.enabled hv]
      have huses : uses (h.step (.get key)).events = key :: uses h.events := by
        apply List.filterMap_cons_some
        simp only [Op.apply, hanswer, Event.used?]
      show (h.cache.get key).2.keys = _
      rw [huses, keys_get_of_mem hs.enabled hs.fits hk, hx, touch_take_eraseDups pos]
    · rw [History.step, Op.apply, get_of_not_mem hk]
      exact hx
  | contains key => exact hx
  | len => exact hx
  | invalidate key => cases hop
  | clear => cases hop

/-- **The cache holds the keys that were used last**, by induction on the operations. -/
theorem Exact.run (hx : Exact n h) (hs : Sound n h) {ops : List (Op κ ν)}
    (hops : ∀ op ∈ ops, op.isRemoval = false) : Exact n (h.run ops) := by
  induction ops generalizing h with
  | nil => exact hx
  | cons op ops ih =>
    have hstep := hx.step hs (hops op List.mem_cons_self)
    exact ih hstep (hs.step op) fun op' h' => hops op' (List.mem_cons_of_mem op h')

/-! ## Eviction -/

/-- **The entry used longest ago makes room.**  After any operations on a cache for `n` entries:
as long as nothing is dropped on demand, a key is there exactly if it was written at some time and
fewer than `n` other keys were used since its last use.  A key that is there holds what was written
last under it.  And a key that was written and not dropped on demand since is still there, with
what was written last under it, if fewer than `n` other keys were used since its last use. -/
theorem evicts_least_recently_used (pos : 0 < n) (ops : List (Op κ ν)) (key : κ) :
    let h : History κ ν := (History.start (.atMost n pos) true).run ops
    ((∀ op ∈ ops, op.isRemoval = false) →
      (h.cache.contains key = true ↔
        (∃ e ∈ h.events, (e.written? key).isSome) ∧
          (othersSince key h.events).eraseDups.length < n)) ∧
    (h.cache.contains key = true →
      ∃ v, h.cache.find? key = some v ∧ latest? key h.events = some v) ∧
    (Kept key h.events → (othersSince key h.events).eraseDups.length < n →
      ∃ v, h.cache.find? key = some v ∧ latest? key h.events = some v) := by
  intro h
  have hs : Sound n h := (Sound.start pos).run ops
  have hholds : key ∈ h.cache.keys →
      ∃ v, h.cache.find? key = some v ∧ latest? key h.events = some v := by
    intro hk
    obtain ⟨v, hv⟩ := exists_find?_of_mem hk
    exact ⟨v, hv, hs.values _ (mem_entries_of_find? hv)⟩
  refine ⟨?_, ?_, ?_⟩
  · intro hops
    have hx : Exact n h := Exact.run (Exact.start pos) (Sound.start pos) hops
    constructor
    · intro hc
      have hk := contains_iff.1 hc
      obtain ⟨v, -, hv⟩ := hholds hk
      rw [hx, mem_take_uses_iff] at hk
      exact ⟨exists_written_of_latest? hv, hk.2⟩
    · rintro ⟨⟨e, he, hw⟩, hlt⟩
      rw [contains_iff, hx, mem_take_uses_iff]
      exact ⟨mem_uses_of_written he hw, hlt⟩
  · intro hc
    exact hholds (contains_iff.1 hc)
  · intro hk hlt
    have hmem : key ∈ uses h.events := by
      obtain ⟨since, e, before, hsplit, hw, -⟩ := hk
      exact mem_uses_of_written (by rw [hsplit]; simp) hw
    exact hholds (hs.kept key hk (mem_take_uses_iff.2 ⟨hmem, hlt⟩))

/-- A cache for two entries: asking for `a` saves it when `c` comes, and `b` makes room.  Where `b`
is dropped on demand, `a` is still there after `c` comes. -/
theorem evicts_least_recently_used_of_two :
    let h : History String Nat := (History.start (.atMost 2 Nat.two_pos) true).run
      [.set "a" 1, .set "b" 2, .get "a", .set "c" 3]
    let g : History String Nat := (History.start (.atMost 2 Nat.two_pos) true).run
      [.set "b" 2, .set "a" 1, .invalidate "b", .set "c" 3]
    (h.cache.contains "a" = true ∧ h.cache.contains "b" = false) ∧
      ∃ v, g.cache.find? "a" = some v ∧ latest? "a" g.events = some v := by
  intro h g
  have hops : ∀ op ∈ [Op.set "a" 1, .set "b" 2, .get "a", .set "c" 3], op.isRemoval = false := by
    decide
  have ha := (evicts_least_recently_used Nat.two_pos _ "a").1 hops
  have hb := (evicts_least_recently_used Nat.two_pos _ "b").1 hops
  refine ⟨⟨?_, ?_⟩, ?_⟩
  · refine ha.2 ⟨⟨⟨.set "a" 1, .done⟩, ?_, rfl⟩, by decide⟩
    exact .tail _ (.tail _ (.tail _ (.head _)))
  · rw [Bool.eq_false_iff]
    intro hc
    exact absurd (hb.1 hc).2 (by decide)
  · refine (evicts_least_recently_used Nat.two_pos _ "a").2.2 ?_ (by decide)
    refine ⟨[⟨.set "c" 3, .done⟩, ⟨.invalidate "b", .truth true⟩], ⟨.set "a" 1, .done⟩,
      [⟨.set "b" 2, .done⟩], rfl, rfl, by decide⟩

end IgnoreRules.Cache
