/-
# The history of a compiler

The rule of a line is found in the cache or made anew.  Which of the two it is can be read off the
lines that were compiled before: it is found exactly when the same line was compiled before and
fewer other lines since than the cache has room for.

* `History.run` makes calls and keeps what happened;
* `Recalled` says when a line was compiled recently;
* `Sound.run` : the cache holds the lines compiled last, and its counters balance;
* `compile_hits_iff_recalled` : the rule of a line is found exactly when it is recalled.
-/
import IgnoreRules.Proofs.CompilerCalls
import IgnoreRules.Proofs.LogChannels

namespace IgnoreRules.Compiler

/-! ## Histories -/

/-- What happened to a compiler. -/
inductive Event where
  /-- A line was compiled, and gave a rule. -/
  | compiled (line : List Char) (r : Compiled)
  /-- So many rules were forgotten. -/
  | cleared (dropped : Nat)

/-- A compiler with what happened to it, the latest first. -/
structure History where
  compiler : Compiler
  events : List Event

namespace History

/-- Nothing happened yet. -/
def start (k : Compiler) : History := ⟨k, []⟩

/-- What happens in a call, the latest first. -/
def eventsOf (k : Compiler) : Call → List Event
  | .clear => [.cleared k.cache.size]
  | x => (List.zipWith Event.compiled x.lines (k.call x).1).reverse

/-- One more call. -/
def call (h : History) (x : Call) : History :=
  ⟨(h.compiler.call x).2.2, eventsOf h.compiler x ++ h.events⟩

/-- Calls one after the other. -/
def run (h : History) (calls : List Call) : History := calls.foldl call h

/-- A line that is compiled is noted with what came of it. -/
theorem call_compile (h : History) (line : List Char) :
    h.call (.compile line)
      = ⟨(h.compiler.compile line).2.2, .compiled line (h.compiler.compile line).1 :: h.events⟩ :=
  rfl

@[simp] theorem run_nil (h : History) : h.run [] = h := rfl

@[simp] theorem run_cons (h : History) (x : Call) (xs : List Call) :
    h.run (x :: xs) = (h.call x).run xs := rfl

/-- Compiling several lines is compiling one after the other. -/
theorem call_compileMany_cons (h : History) (line : List Char) (lines : List (List Char)) :
    h.call (.compileMany (line :: lines))
      = (h.call (.compile line)).call (.compileMany lines) := by
  simp only [call, eventsOf, Compiler.call, compileAll_cons, Call.lines, List.zipWith_cons_cons,
    List.reverse_cons, List.append_assoc, List.zipWith_nil_right, List.reverse_nil,
    List.nil_append]

/-- What happens while many lines are compiled happens while they are compiled one by one. -/
theorem call_compileMany (h : History) (lines : List (List Char)) :
    h.call (.compileMany lines) = h.run (lines.map .compile) := by
  induction lines generalizing h with
  | nil => rfl
  | cons line lines ih => rw [call_compileMany_cons, ih, List.map_cons, run_cons]

end History

/-! ## What events say of a line -/

/-- The line that was compiled. -/
def Event.line? : Event → Option (List Char)
  | .compiled line _ => some line
  | .cleared _ => none

/-- The rule that was given. -/
def Event.rule? : Event → Option Compiled
  | .compiled _ r => some r
  | .cleared _ => none

/-- How many rules were forgotten. -/
def Event.dropped : Event → Nat
  | .compiled _ _ => 0
  | .cleared n => n

/-- The rule that a line was given. -/
def Event.ruleOf? (line : List Char) (e : Event) : Option Compiled :=
  if e.line? = some line then e.rule? else none

/-- The rule that the previous compile of a line gave. -/
def previous? (line : List Char) (events : List Event) : Option Compiled :=
  events.findSome? (Event.ruleOf? line)

/-- The lines compiled since rules were forgotten last, the latest first. -/
def recentLines (events : List Event) : List (List Char) :=
  (events.takeWhile fun e => e.line?.isSome).filterMap Event.line?

/-- How many rules were forgotten so far. -/
def dropped : List Event → Nat
  | [] => 0
  | e :: events => e.dropped + dropped events

/-- The line was compiled before and gave `r`; since then it was not compiled again, nothing was
forgotten, and fewer than `n` other lines were compiled. -/
def Recalled (n : Nat) (line : List Char) (r : Compiled) (events : List Event) : Prop :=
  ∃ since before, events = since ++ .compiled line r :: before ∧
    (∀ e ∈ since, e.line?.isSome ∧ e.line? ≠ some line) ∧
    (since.filterMap Event.line?).eraseDups.length < n

theorem recentLines_compiled (line : List Char) (r : Compiled) (events : List Event) :
    recentLines (.compiled line r :: events) = line :: recentLines events := rfl

theorem previous?_compiled_self (line : List Char) (r : Compiled) (events : List Event) :
    previous? line (.compiled line r :: events) = some r := by
  simp [previous?, Event.ruleOf?, Event.line?, Event.rule?]

theorem previous?_cons_of_ne {line : List Char} {e : Event} (h : e.line? ≠ some line)
    (events : List Event) : previous? line (e :: events) = previous? line events := by
  rw [previous?, List.findSome?_cons, Event.ruleOf?, if_neg h]
  rfl

theorem previous?_compiled_of_ne {line l : List Char} (h : l ≠ line) (r : Compiled)
    (events : List Event) : previous? line (.compiled l r :: events) = previous? line events :=
  previous?_cons_of_ne (e := .compiled l r) (fun h' => h (Option.some.inj h')) events

theorem dropped_compiled (line : List Char) (r : Compiled) (events : List Event) :
    dropped (.compiled line r :: events) = dropped events := Nat.zero_add _

/-- A rule that a line was given is one of those that were given. -/
theorem exists_rule?_of_previous? {line : List Char} {r : Compiled} {events : List Event}
    (h : previous? line events = some r) : ∃ e ∈ events, e.rule? = some r := by
  obtain ⟨e, he, hr⟩ := List.exists_of_findSome?_eq_some h
  refine ⟨e, he, ?_⟩
  rw [Event.ruleOf?] at hr
  split at hr
  · exact hr
  · cases hr

/-- Behind events that compile other lines, the recent lines go on. -/
theorem recentLines_append {since : List Event} (h : ∀ e ∈ since, e.line?.isSome)
    (events : List Event) :
    recentLines (since ++ events) = since.filterMap Event.line? ++ recentLines events := by
  rw [recentLines, List.takeWhile_append_of_pos h, List.filterMap_append]
  rfl

/-- Events that are not about a line do not matter for it. -/
theorem previous?_append {line : List Char} {since : List Event}
    (h : ∀ e ∈ since, e.line? ≠ some line) (events : List Event) :
    previous? line (since ++ events) = previous? line events := by
  induction since with
  | nil => rfl
  | cons e since ih =>
    rw [List.cons_append, previous?_cons_of_ne (h e List.mem_cons_self)]
    exact ih fun d hd => h d (List.mem_cons_of_mem e hd)

/-- A recent line was compiled before, with nothing forgotten since. -/
theorem exists_split_of_mem_recentLines {line : List Char} {events : List Event}
    (h : line ∈ recentLines events) :
    ∃ since r before, events = since ++ .compiled line r :: before ∧
      ∀ e ∈ since, e.line?.isSome ∧ e.line? ≠ some line := by
  induction events with
  | nil => cases h
  | cons e events ih =>
    cases e with
    | cleared n => cases h
    | compiled l r =>
      by_cases hl : l = line
      · -- the latest event compiled the line
        subst hl
        refine ⟨[], r, events, rfl, ?_⟩
        intro e he
        cases he
      · rw [recentLines_compiled] at h
        have hmem : line ∈ recentLines events := by
          rcases List.mem_cons.1 h with h | h
          · exact absurd h.symm hl
          · exact h
        obtain ⟨since, r', before, hsplit, hs⟩ := ih hmem
        refine ⟨.compiled l r :: since, r', before, by rw [hsplit]; rfl, ?_⟩
        intro e he
        rcases List.mem_cons.1 he with rfl | he
        · exact ⟨rfl, fun h => hl (Option.some.inj h)⟩
        · exact hs e he

/-- A line that was compiled, and not again since, is among the `n` recent lines compiled last
exactly if fewer than `n` others were compiled since. -/
theorem mem_take_recentLines_iff {n : Nat} {line : List Char} {r : Compiled}
    {since before : List Event} (hs : ∀ e ∈ since, e.line?.isSome ∧ e.line? ≠ some line) :
    line ∈ (recentLines (since ++ .compiled line r :: before)).eraseDups.take n ↔
      (since.filterMap Event.line?).eraseDups.length < n := by
  have hout : line ∉ since.filterMap Event.line? := by
    intro hmem
    obtain ⟨e, he, hl⟩ := List.mem_filterMap.1 hmem
    exact (hs e he).2 hl
  rw [recentLines_append fun e he => (hs e he).1, recentLines_compiled,
    Recency.mem_take_eraseDups_iff hout]

/-- **A line is recalled exactly if it is among the `n` recent lines compiled last**, and its rule
is the one that its previous compile gave. -/
theorem recalled_iff {n : Nat} {line : List Char} {r : Compiled} {events : List Event} :
    Recalled n line r events ↔
      line ∈ (recentLines events).eraseDups.take n ∧ previous? line events = some r := by
  constructor
  · rintro ⟨since, before, rfl, hs, hlt⟩
    refine ⟨(mem_take_recentLines_iff hs).2 hlt, ?_⟩
    rw [previous?_append fun e he => (hs e he).2, previous?_compiled_self]
  · rintro ⟨hmem, hprev⟩
    obtain ⟨since, r', before, rfl, hs⟩ := exists_split_of_mem_recentLines
      (List.mem_eraseDups.1 (List.mem_of_mem_take hmem))
    rw [previous?_append fun e he => (hs e he).2, previous?_compiled_self] at hprev
    obtain rfl := Option.some.inj hprev
    exact ⟨since, before, rfl, hs, (mem_take_recentLines_iff hs).1 hmem⟩

/-! ## The cache comes from the history -/

/-- What holds of every history of a compiler with room for `n` rules. -/
structure Sound (n : Nat) (h : History) : Prop where
  enabled : h.compiler.cache.enabled = true
  capacity : ∃ pos, h.compiler.cache.capacity = .atMost n pos
  /-- The cache holds the `n` recent lines compiled last. -/
  keys : h.compiler.cache.keys = (recentLines h.events).eraseDups.take n
  /-- Under a line stands the rule that its previous compile gave. -/
  rules : ∀ e ∈ h.compiler.cache.entries, previous? e.1 h.events = some e.2
  /-- Later rules will have other numbers. -/
  serials : ∀ e ∈ h.events, ∀ r, e.rule? = some r → r.serial < h.compiler.made
  /-- Every rule that was made is in the cache, made room, or was forgotten. -/
  balance : h.compiler.cache.misses
    = h.compiler.cache.evictions + h.compiler.cache.size + dropped h.events

variable {n : Nat} {h : History} {line : List Char}

theorem Sound.start (pos : 0 < n) : Sound n (.start ⟨.empty (.atMost n pos) true, 0⟩) where
  enabled := rfl
  capacity := ⟨pos, rfl⟩
  keys := List.take_nil.symm
  rules := by
    intro e he
    cases he
  serials := by
    intro e he
    cases he
  balance := rfl

/-- There are never more than `n` lines in the cache. -/
theorem Sound.fits (hs : Sound n h) : h.compiler.cache.keys.length ≤ n := by
  rw [hs.keys, List.length_take]
  exact Nat.min_le_left _ _

/-- A line that is in the cache was recalled. -/
theorem Sound.mem_iff (hs : Sound n h) :
    line ∈ h.compiler.cache.keys ↔ ∃ r, Recalled n line r h.events := by
  simp only [recalled_iff]
  rw [← hs.keys, exists_and_left]
  constructor
  · intro hk
    obtain ⟨r, hr⟩ := Cache.exists_find?_of_mem hk
    exact ⟨hk, r, hs.rules _ (Cache.mem_entries_of_find? hr)⟩
  · exact And.left

/-- No line is in the cache twice. -/
theorem Sound.nodup (hs : Sound n h) : h.compiler.cache.keys.Nodup := by
  rw [hs.keys]
  exact (Recency.nodup_eraseDups _).sublist (List.take_sublist _ _)

/-- A compile that touches its line in the cache, keeps its rule there and nothing else that is
new, and counts what it did. -/
theorem Sound.compiled (hs : Sound n h) {k : Compiler} {r : Compiled}
    (he : k.cache.enabled = h.compiler.cache.enabled)
    (hc : k.cache.capacity = h.compiler.cache.capacity)
    (hkeys : k.cache.keys = Recency.touch n line h.compiler.cache.keys)
    (hentries : ∀ e ∈ k.cache.entries,
      e = (line, r) ∨ e ∈ h.compiler.cache.entries ∧ e.1 ≠ line)
    (hmade : h.compiler.made ≤ k.made) (hserial : r.serial < k.made)
    (hbalance : k.cache.misses = k.cache.evictions + k.cache.size + dropped h.events) :
    Sound n ⟨k, .compiled line r :: h.events⟩ := by
  obtain ⟨pos, hcap⟩ := hs.capacity
  refine ⟨he.trans hs.enabled, ⟨pos, hc.trans hcap⟩, ?_, ?_, ?_, ?_⟩
  · rw [hkeys, hs.keys, Recency.touch_take_eraseDups pos, recentLines_compiled]
  · intro e hmem
    -- the compile changed what was given last for its own line only
    rcases hentries e hmem with rfl | ⟨hold, hne⟩
    · exact previous?_compiled_self line r h.events
    · rw [previous?_compiled_of_ne (Ne.symm hne)]
      exact hs.rules e hold
  · intro e hmem r' hr'
    rcases List.mem_cons.1 hmem with rfl | hmem
    · cases hr'
      exact hserial
    · exact Nat.lt_of_lt_of_le (hs.serials e hmem r' hr') hmade
  · rw [dropped_compiled]
    exact hbalance

/-- Compiling a line that is in the cache. -/
theorem Sound.compile_of_mem (hs : Sound n h) (hk : line ∈ h.compiler.cache.keys) :
    Sound n (h.call (.compile line)) := by
  obtain ⟨r, hr, hc⟩ := Compiler.compile_of_mem hs.enabled hk
  have hget := Cache.get_of_find? hs.enabled hr
  have hsize := Cache.size_get_of_mem hs.enabled hs.nodup hk
  rw [History.call_compile, hc]
  refine hs.compiled (Cache.enabled_get ..) (Cache.capacity_get ..)
    (Cache.keys_get_of_mem hs.enabled hs.fits hk) ?_ (Nat.le_refl _) ?_ ?_
  · intro e he
    rw [hget] at he
    rcases List.mem_cons.1 he with rfl | he
    · exact Or.inl rfl
    · obtain ⟨hold, hne⟩ := List.mem_filter.1 he
      exact Or.inr ⟨hold, by simpa using hne⟩
  · -- the rule was given before
    have hprev := hs.rules _ (Cache.mem_entries_of_find? hr)
    obtain ⟨d, hd, hrule⟩ := exists_rule?_of_previous? hprev
    exact hs.serials d hd r hrule
  · rw [hsize, hget]
    exact hs.balance

/-- Compiling a line that is not in the cache. -/
theorem Sound.compile_of_not_mem (hs : Sound n h) (hk : line ∉ h.compiler.cache.keys) :
    Sound n (h.call (.compile line)) := by
  obtain ⟨pos, hcap⟩ := hs.capacity
  have hon : h.compiler.cache.miss.enabled = true := hs.enabled
  rw [History.call_compile, Compiler.compile_of_not_mem hk]
  refine hs.compiled (Cache.enabled_put ..) (Cache.capacity_put ..) (Cache.keys_put hon hcap ..)
    (fun e => Cache.mem_entries_put hon) (Nat.le_succ _) (Nat.lt_succ_self _) ?_
  rw [Cache.misses_put, Cache.evictions_put_add_size_of_not_mem hon hk]
  have hbalance := hs.balance
  change h.compiler.cache.misses + 1
    = h.compiler.cache.evictions + h.compiler.cache.size + 1 + dropped h.events
  omega

/-- **Compiling a line keeps the cache true to the history.** -/
theorem Sound.compile (hs : Sound n h) (line : List Char) : Sound n (h.call (.compile line)) := by
  by_cases hk : line ∈ h.compiler.cache.keys
  · exact hs.compile_of_mem hk
  · exact hs.compile_of_not_mem hk

/-- Forgetting all rules. -/
theorem Sound.clear (hs : Sound n h) : Sound n (h.call .clear) := by
  refine ⟨hs.enabled, hs.capacity, List.take_nil.symm, ?_, ?_, ?_⟩
  · intro e he
    cases he
  · intro e he r hr
    rcases List.mem_cons.1 he with rfl | he
    · cases hr
    · exact hs.serials e he r hr
  · have hbalance := hs.balance
    change h.compiler.cache.misses
      = h.compiler.cache.evictions + 0 + (h.compiler.cache.size + dropped h.events)
    omega

/-- **Compiling lines keeps the history sound**, by induction on the lines. -/
theorem Sound.compileMany (hs : Sound n h) (lines : List (List Char)) :
    Sound n (h.call (.compileMany lines)) := by
  induction lines generalizing h with
  | nil => exact hs
  | cons line lines ih =>
    rw [History.call_compileMany_cons]
    exact ih (hs.compile line)

/-- **Every call keeps the cache true to the history.** -/
theorem Sound.call (hs : Sound n h) (x : Call) : Sound n (h.call x) := by
  cases x with
  | compile line => exact hs.compile line
  | compileMany lines => exact hs.compileMany lines
  | clear => exact hs.clear

/-- Whatever is called, the cache comes from the history. -/
theorem Sound.run (hs : Sound n h) (calls : List Call) : Sound n (h.run calls) := by
  induction calls generalizing h with
  | nil => exact hs
  | cons x xs ih => exact ih (hs.call x)

/-- There are as many entries as recent lines, up to the room of the cache. -/
theorem Sound.size (hs : Sound n h) :
    h.compiler.cache.size = min n (recentLines h.events).eraseDups.length := by
  rw [← Cache.length_keys, hs.keys, List.length_take]

/-! ## Hits and new rules -/

/-- A logger that delivers all records hands one record with this message, and with the severity
of debugging, to each of its handlers, unless its frames hold what cannot be shown. -/
def LoggedOnce (message : String) (entry : Log.Entry) : Prop :=
  ∀ (g : Log.Registry) (name : String) (layout : Log.Layout),
    (g.channel name).level = Log.Severity.debug.rank →
    ∃ record : Log.Record, record.severity = .debug ∧
      record.message = Log.messageWith message record.context ∧
      (g.HasShowableFrames → record.isShowable = true) ∧
      g.log name layout entry = if record.isShowable
        then some ((g.channel name).handlers.map fun handler =>
          (g.sinks[handler]?.getD .kept).deliver handler record layout)
        else none

/-- An entry that can be shown is logged once. -/
theorem loggedOnce (entry : Log.Entry) (h : entry.severity = .debug)
    (hshowable : (Value.mapping entry.context).isShowable = true) :
    LoggedOnce entry.message entry := by
  intro g name layout hlevel
  have hadmits : g.admits name Log.Severity.debug.rank = true := by
    rw [Log.Registry.admits, hlevel]
    rfl
  have hdeliver : g.deliver name layout (g.entryRecord name entry)
      = (g.channel name).handlers.map fun handler =>
        (g.sinks[handler]?.getD .kept).deliver handler (g.entryRecord name entry) layout := by
    rw [Log.Registry.deliver, Log.Registry.entryRecord, h, if_pos hadmits]
    -- without a handler, a record of debugging is dropped
    cases (g.channel name).handlers <;> rfl
  refine ⟨g.entryRecord name entry, h, rfl, fun hg => g.isShowable_context hg hshowable, ?_⟩
  rw [Log.Registry.log, h, hadmits, ← hdeliver]
  cases (g.entryRecord name entry).isShowable <;> rfl

/-- Compiling the line now finds the rule that its previous compile gave, and says so. -/
structure IsHit (h : History) (line : List Char) : Prop where
  rule : previous? line h.events = some (h.compiler.compile line).1
  hits : (h.compiler.compile line).2.2.cache.hits = h.compiler.cache.hits + 1
  misses : (h.compiler.compile line).2.2.cache.misses = h.compiler.cache.misses
  logged : LoggedOnce "Rule cache hit" (h.compiler.compile line).2.1

/-- Compiling the line now makes a rule that is none of those given before, and says so. -/
structure IsNew (h : History) (line : List Char) : Prop where
  rule : ∀ e ∈ h.events, ∀ r, e.rule? = some r →
    r.serial ≠ (h.compiler.compile line).1.serial
  hits : (h.compiler.compile line).2.2.cache.hits = h.compiler.cache.hits
  misses : (h.compiler.compile line).2.2.cache.misses = h.compiler.cache.misses + 1
  logged : LoggedOnce "Compiled rule" (h.compiler.compile line).2.1

/-- A line that the cache holds is a hit. -/
theorem Sound.isHit (hs : Sound n h) (hk : line ∈ h.compiler.cache.keys) : IsHit h line := by
  obtain ⟨r, hr, hc⟩ := Compiler.compile_of_mem hs.enabled hk
  have hget := Cache.get_of_find? hs.enabled hr
  refine ⟨?_, ?_, ?_, ?_⟩
  · rw [hc]
    exact hs.rules _ (Cache.mem_entries_of_find? hr)
  · rw [hc, hget]
  · rw [hc, hget]
  · rw [hc]
    exact loggedOnce (hitEntry line) rfl rfl

/-- A line that the cache does not hold is compiled anew. -/
theorem Sound.isNew (hs : Sound n h) (hk : line ∉ h.compiler.cache.keys) : IsNew h line := by
  have hc := Compiler.compile_of_not_mem hk
  refine ⟨?_, ?_, ?_, ?_⟩
  · intro e he r hr
    rw [hc]
    exact Nat.ne_of_lt (hs.serials e he r hr)
  · rw [hc, Cache.hits_put]
    rfl
  · rw [hc, Cache.misses_put]
    rfl
  · rw [hc]
    exact loggedOnce (madeEntry (.compile line)) rfl rfl

/-- No compile does both. -/
theorem IsHit.not_isNew (hit : IsHit h line) : ¬ IsNew h line := by
  intro hnew
  have hmisses := hit.misses.symm.trans hnew.misses
  omega

/-- **The rule of a line is found exactly when the line was compiled recently.**  For a compiler
that keeps `n` rules, after any calls: compiling a line gives the rule of its previous compile if
nothing was forgotten since and fewer than `n` other lines were compiled since, and a new rule
otherwise; it counts and logs which of the two it did.  The cache has as many entries as lines
were compiled since the rules were forgotten last, up to `n`, and every rule that was made is in
it, was dropped to make room, or was forgotten.  Many lines at once are compiled like one line
after the other. -/
theorem compile_hits_iff_recalled {s : Settings} (pos : 0 < n)
    (hmax : s.get (Key.full Key.cache Key.maxEntries) (.int Settings.defaultMaxEntries) = .int n)
    (hon : (s.get (Key.full Key.cache Key.enabled) (.bool true)).isTrue = true) :
    ∃ k, ofSettings s = .ok k ∧ ∀ calls line, let h := (History.start k).run calls
      (IsHit h line ↔ ∃ r, Recalled n line r h.events) ∧
      (IsNew h line ↔ ¬ ∃ r, Recalled n line r h.events) ∧
      h.compiler.cache.size = min n (recentLines h.events).eraseDups.length ∧
      h.compiler.cache.misses
        = h.compiler.cache.evictions + h.compiler.cache.size + dropped h.events ∧
      ∀ lines, h.call (.compileMany lines) = h.run (lines.map .compile) ∧
        h.compiler.compileAll lines = h.compiler.callAll (lines.map .compile) := by
  refine ⟨⟨.empty (.atMost n pos) true, 0⟩, ?_, ?_⟩
  · rw [ofSettings_of_int pos hmax, hon]
  · intro calls line h
    have hs : Sound n h := (Sound.start pos).run calls
    refine ⟨?_, ?_, hs.size, hs.balance, fun lines =>
      ⟨h.call_compileMany lines, compileAll_eq_callAll _ lines⟩⟩
    · rw [← hs.mem_iff]
      constructor
      · intro hit
        apply Decidable.of_not_not
        intro hk
        exact hit.not_isNew (hs.isNew hk)
      · exact hs.isHit
    · rw [← hs.mem_iff]
      constructor
      · intro hnew hk
        exact (hs.isHit hk).not_isNew hnew
      · exact hs.isNew

/-- With room for a single rule, the line compiled last is found and the one before it is not. -/
theorem compile_hits_iff_recalled_with_one_rule :
    let a := "a*".toList
    let b := "!b/".toList
    ∃ k, ofSettings oneRuleSettings = .ok k ∧
      let h := (History.start k).run [.compile a, .clear, .compileMany [a, b]]
      IsHit h b ∧ IsNew h a := by
  intro a b
  obtain ⟨k, hk, hall⟩ := compile_hits_iff_recalled (s := oneRuleSettings) Nat.one_pos rfl rfl
  have hstart : ofSettings oneRuleSettings = .ok ⟨.empty (.atMost 1 Nat.one_pos) true, 0⟩ := rfl
  obtain rfl := Except.ok.inj (hk.symm.trans hstart)
  refine ⟨_, hk, ?_, ?_⟩
  · refine (hall _ b).1.2 ⟨⟨2, .compile b⟩, [], _, rfl, ?_, Nat.one_pos⟩
    intro e he
    cases he
  · refine (hall _ a).2.1.2 ?_
    rintro ⟨r, hr⟩
    exact absurd (recalled_iff.1 hr).1 (by decide)

end IgnoreRules.Compiler
