/-
# Calls of a compiler

A compiler is asked for the rule of one line or of many, and to forget what it made.  A rule that
it finds in its cache is the one that the line gives anyway, so nobody can tell whether there was
a cache.

* `Compiler.callAll` makes one call after the other;
* `Faithful.compile` : what is kept under a line is the rule of that line;
* `caching_is_transparent` : every call returns the rules that its lines give, and many lines at
  once are compiled like one line after the other.
-/
import IgnoreRules.Compiler
import IgnoreRules.Log.Registry
import IgnoreRules.Proofs.Recency

namespace IgnoreRules.Compiler

/-! ## Calls -/

/-- What a compiler can be asked for. -/
inductive Call where
  | compile (line : List Char)
  | compileMany (lines : List (List Char))
  | clear

/-- The lines that a call asks rules for. -/
def Call.lines : Call → List (List Char)
  | .compile line => [line]
  | .compileMany lines => lines
  | .clear => []

/-- Makes a call: the rules it returns, what is to be logged, and the compiler behind it. -/
def call (k : Compiler) : Call → List Compiled × List Log.Entry × Compiler
  | .compile line => ([(k.compile line).1], [(k.compile line).2.1], (k.compile line).2.2)
  | .compileMany lines => k.compileAll lines
  | .clear => ([], [], k.clear)

/-- Makes calls one after the other. -/
def callAll (k : Compiler) : List Call → List Compiled × List Log.Entry × Compiler
  | [] => ([], [], k)
  | x :: xs =>
      let first := k.call x
      let later := callAll first.2.2 xs
      (first.1 ++ later.1, first.2.1 ++ later.2.1, later.2.2)

theorem callAll_cons (k : Compiler) (x : Call) (xs : List Call) :
    k.callAll (x :: xs) =
      ((k.call x).1 ++ ((k.call x).2.2.callAll xs).1,
        (k.call x).2.1 ++ ((k.call x).2.2.callAll xs).2.1, ((k.call x).2.2.callAll xs).2.2) := rfl

theorem compileAll_cons (k : Compiler) (line : List Char) (lines : List (List Char)) :
    k.compileAll (line :: lines) =
      ((k.compile line).1 :: ((k.compile line).2.2.compileAll lines).1,
        (k.compile line).2.1 :: ((k.compile line).2.2.compileAll lines).2.1,
        ((k.compile line).2.2.compileAll lines).2.2) := rfl

/-- Many lines at once are compiled like one line after the other. -/
theorem compileAll_eq_callAll (k : Compiler) (lines : List (List Char)) :
    k.compileAll lines = k.callAll (lines.map .compile) := by
  induction lines generalizing k with
  | nil => rfl
  | cons line lines ih =>
    rw [compileAll_cons, List.map_cons, callAll_cons, ih]
    rfl

/-! ## One line -/

/-- A line that is in the cache gives the rule kept there. -/
theorem compile_of_mem {k : Compiler} {line : List Char} (he : k.cache.enabled = true)
    (h : line ∈ k.cache.keys) :
    ∃ r, k.cache.find? line = some r ∧
      k.compile line = (r, hitEntry line, { k with cache := (k.cache.get line).2 }) := by
  obtain ⟨r, hr⟩ := Cache.exists_find?_of_mem h
  refine ⟨r, hr, ?_⟩
  rw [compile, Cache.get_of_find? he hr]

/-- A line that is not in the cache gives a new rule, which is put there. -/
theorem compile_of_not_mem {k : Compiler} {line : List Char} (h : line ∉ k.cache.keys) :
    k.compile line =
      (⟨k.made, .compile line⟩, madeEntry (.compile line),
        ⟨k.cache.miss.put line ⟨k.made, .compile line⟩, k.made + 1⟩) := by
  rw [compile, Cache.get_of_not_mem h]

/-- What is kept under a line is the rule of that line. -/
def Faithful (k : Compiler) : Prop := ∀ e ∈ k.cache.entries, e.2.rule = .compile e.1

/-- A compiler starts without entries. -/
theorem exists_cache_of_ofSettings {s : Settings} {k : Compiler} (h : ofSettings s = .ok k) :
    ∃ capacity enabled, k = ⟨.empty capacity enabled, 0⟩ := by
  rw [ofSettings, Cache.ofSettings, Cache.ofOptions] at h
  cases hc : Cache.capacityOf (s.get (Key.full Key.cache Key.maxEntries)
      (.int Settings.defaultMaxEntries)) with
  | error e =>
    rw [hc] at h
    cases h
  | ok capacity =>
    rw [hc] at h
    cases h
    exact ⟨capacity, _, rfl⟩

/-- Settings that give a positive number make a compiler that keeps so many rules. -/
theorem ofSettings_of_int {s : Settings} {n : Nat} (pos : 0 < n)
    (hmax : s.get (Key.full Key.cache Key.maxEntries) (.int Settings.defaultMaxEntries) = .int n) :
    ofSettings s = .ok ⟨.empty (.atMost n pos)
      (s.get (Key.full Key.cache Key.enabled) (.bool true)).isTrue, 0⟩ := by
  have hcapacity : Cache.capacityOf (.int n) = .ok (.atMost n pos) := dif_pos pos
  rw [ofSettings, Cache.ofSettings, Cache.ofOptions, hmax, hcapacity]
  rfl

/-- A compiler that was just made has nothing in its cache that is wrong. -/
theorem Faithful.ofSettings {s : Settings} {k : Compiler} (h : ofSettings s = .ok k) :
    Faithful k := by
  obtain ⟨capacity, enabled, rfl⟩ := exists_cache_of_ofSettings h
  intro e he
  cases he

/-- Writing the rule of a line under it. -/
theorem faithful_put {c : Cache (List Char) Compiled} {line : List Char} {r : Compiled} {made : Nat}
    (hc : ∀ e ∈ c.entries, e.2.rule = .compile e.1) (hr : r.rule = .compile line) :
    Faithful ⟨c.put line r, made⟩ := by
  intro e he
  by_cases hon : c.enabled = true
  · rcases Cache.mem_entries_put hon he with rfl | ⟨hmem, -⟩
    · exact hr
    · exact hc e hmem
  · have hsame : c.put line r = c := Cache.put_of_disabled (by simpa using hon) line r
    exact hc e (hsame ▸ he)

/-- **Compiling a line gives its rule**, from the cache or anew, and keeps the cache faithful. -/
theorem Faithful.compile {k : Compiler} (hk : Faithful k) (line : List Char) :
    (k.compile line).1.rule = .compile line ∧ Faithful (k.compile line).2.2 := by
  rw [Compiler.compile]
  cases hg : k.cache.get line with
  | mk found cache =>
    have hcache : ∀ e ∈ cache.entries, e.2.rule = .compile e.1 := by
      intro e he
      have hback : (k.cache.get line).2 = cache := by rw [hg]
      exact hk e (Cache.mem_of_mem_entries_get (hback ▸ he))
    cases found with
    | some r => exact ⟨hk _ (Cache.mem_entries_of_get (by rw [hg])), hcache⟩
    | none => exact ⟨rfl, faithful_put hcache rfl⟩

/-- What is logged when a line is compiled is there for debugging. -/
theorem severity_entry (k : Compiler) (line : List Char) :
    (k.compile line).2.1.severity = .debug := by
  rw [compile]
  cases k.cache.get line with
  | mk found cache => cases found <;> rfl

/-- What is logged when a line is compiled can be shown. -/
theorem isShowable_entry (k : Compiler) (line : List Char) :
    (Value.mapping (k.compile line).2.1.context).isShowable = true := by
  rw [compile]
  cases k.cache.get line with
  | mk found cache => cases found <;> rfl

theorem Faithful.clear {k : Compiler} : Faithful k.clear := by
  intro e he
  cases he

/-! ## Many calls -/

/-- Each line in its turn gives its rule. -/
theorem Faithful.compileAll {k : Compiler} (hk : Faithful k) (lines : List (List Char)) :
    (k.compileAll lines).1.map Compiled.rule = lines.map Rule.compile ∧
      Faithful (k.compileAll lines).2.2 := by
  induction lines generalizing k with
  | nil => exact ⟨rfl, hk⟩
  | cons line lines ih =>
    obtain ⟨hr, hnext⟩ := hk.compile line
    obtain ⟨hrs, hend⟩ := ih hnext
    rw [compileAll_cons]
    refine ⟨?_, hend⟩
    rw [List.map_cons, List.map_cons, hr, hrs]

/-- A call returns the rules of its lines. -/
theorem Faithful.call {k : Compiler} (hk : Faithful k) (x : Call) :
    (k.call x).1.map Compiled.rule = x.lines.map Rule.compile ∧ Faithful (k.call x).2.2 := by
  cases x with
  | compile line =>
    obtain ⟨hr, hnext⟩ := hk.compile line
    exact ⟨congrArg (fun r => [r]) hr, hnext⟩
  | compileMany lines => exact hk.compileAll lines
  | clear => exact ⟨rfl, .clear⟩

/-- Calls one after the other return the rules of all their lines. -/
theorem Faithful.callAll {k : Compiler} (hk : Faithful k) (calls : List Call) :
    (k.callAll calls).1.map Compiled.rule = (calls.flatMap Call.lines).map Rule.compile ∧
      Faithful (k.callAll calls).2.2 := by
  induction calls generalizing k with
  | nil => exact ⟨rfl, hk⟩
  | cons x xs ih =>
    obtain ⟨hr, hnext⟩ := hk.call x
    obtain ⟨hrs, hend⟩ := ih hnext
    rw [callAll_cons]
    refine ⟨?_, hend⟩
    rw [List.map_append, List.flatMap_cons, List.map_append, hr, hrs]

/-- **Caching is transparent.**  Whatever the settings that a compiler is made with, every rule
that it returns for a line, over any calls, is the one that the line gives when it is compiled
afresh: it has that line as its pattern, and the same flags and the same answer for every path.
Many lines at once give one such rule each, in their order, and do to the compiler, its counters
and the records that any logger is handed what the lines do one after the other. -/
theorem caching_is_transparent {s : Settings} {k : Compiler} (h : ofSettings s = .ok k)
    (calls : List Call) :
    (k.callAll calls).1.map Compiled.rule = (calls.flatMap Call.lines).map Rule.compile ∧
    (∀ line, (Rule.compile line).pattern = line) ∧
    ∀ lines, let now := (k.callAll calls).2.2
      (now.compileAll lines).1.map Compiled.rule = lines.map Rule.compile ∧
      (now.compileAll lines).1 = (now.callAll (lines.map .compile)).1 ∧
      (now.compileAll lines).2.2 = (now.callAll (lines.map .compile)).2.2 ∧
      ∀ (g : Log.Registry) (name : String) (layout : Log.Layout),
        (now.compileAll lines).2.1.map (g.log name layout)
          = (now.callAll (lines.map .compile)).2.1.map (g.log name layout) := by
  obtain ⟨hrules, hnow⟩ := (Faithful.ofSettings h).callAll calls
  refine ⟨hrules, Rule.pattern_compile, fun lines => ⟨(hnow.compileAll lines).1, ?_⟩⟩
  rw [compileAll_eq_callAll]
  exact ⟨rfl, rfl, fun _ _ _ => rfl⟩

/-- Settings with room for a single rule. -/
def oneRuleSettings : Settings :=
  Settings.initial.replace .runtime [(.text Key.root, .mapping [
    (.text Key.cache, .mapping [(.text Key.maxEntries, .int 1)])])]

/-- With room for a single rule, lines are served from the cache, dropped and compiled anew. -/
theorem caching_is_transparent_with_one_rule :
    let k : Compiler := ⟨.empty (.atMost 1 Nat.one_pos) true, 0⟩
    let a := "a*".toList
    let b := "!b/".toList
    ofSettings oneRuleSettings = .ok k ∧
      (k.callAll [.compile a, .compileMany [a, b, a], .clear]).1.map Compiled.rule
        = [a, a, b, a].map Rule.compile := by
  intro k a b
  have hk : ofSettings oneRuleSettings = .ok k := rfl
  exact ⟨hk, (caching_is_transparent hk _).1⟩

end IgnoreRules.Compiler
