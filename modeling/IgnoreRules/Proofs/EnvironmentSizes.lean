/-
# Sizes from the environment

Variables are written one after the other, so of those that are read as the same path the last one
counts.  What it writes stays where it is, unless a scalar comes to stand in the way to it, and then
there is no configuration.  The environment comes before the defaults and a file, and so a compiler
that is made when a program starts never keeps more rules than the last variable for the size of the
cache says.

* `Entries.standsOrBlocked_of_putAll` : what becomes of a scalar that others are written behind;
* `Environment.get?_of_start` : the last variable of a field is what is found under its key;
* `Compiler.Fits.callAll` : no call makes a compiler keep too many rules;
* `integers_survive_environment` : from the text of an integer to the rules that are kept.
-/
import IgnoreRules.Proofs.CacheBalance
import IgnoreRules.Proofs.EnvironmentOrder
import IgnoreRules.Proofs.WrittenIntegers

namespace IgnoreRules

/-! ## The last scalar of a path -/

namespace Entries

variable {es fs : Entries} {path : List String} {s : Scalar}
  {writes before after : List (List String × Value)}

/-- The scalar stands at the end of the path, or what is no mapping stands in the way to it. -/
def StandsOrBlocked (es : Entries) (path : List String) (s : Scalar) : Prop :=
  (Value.mapping es).walk path = some (.scalar s) ∨ (Value.mapping es).Blocks path.dropLast

/-- Writing a scalar at another path keeps this so. -/
theorem StandsOrBlocked.put {t : Scalar} {other : List String} (h : es.StandsOrBlocked path s)
    (hne : other ≠ []) (hother : other ≠ path) (hput : es.putPath (.scalar t) other = .ok fs) :
    fs.StandsOrBlocked path s := by
  rcases h with hwalk | hblocks
  · rcases walk_putPath_cases hput hne path with ⟨heq, -⟩ | ⟨hgoes, -⟩ | ⟨hgoes, -⟩ | ⟨-, hsame⟩
    · exact absurd heq.symm hother
    · -- the first scalar would have been in the way
      have hway := (goesOn_iff_prefix_dropLast.1 hgoes).2
      exact absurd ⟨path, _, hway, hwalk, Value.kind_scalar_ne s⟩ (not_blocks_of_putPath hput)
    · have hway := (goesOn_iff_prefix_dropLast.1 hgoes).2
      exact Or.inr ⟨other, _, hway, walk_putPath_self hput hne, Value.kind_scalar_ne t⟩
    · exact Or.inl (hsame.trans hwalk)
  · exact Or.inr (blocks_putPath hput hne hblocks)

/-- What stands at a path stays while values are written elsewhere. -/
theorem StandsOrBlocked.putAll (h : es.StandsOrBlocked path s) (hleaf : ∀ w ∈ writes, IsLeaf w)
    (hother : ∀ w ∈ writes, w.1 ≠ path) (hput : es.putAll writes = .ok fs) :
    fs.StandsOrBlocked path s := by
  induction writes generalizing es with
  | nil =>
    cases hput
    exact h
  | cons w writes ih =>
    obtain ⟨⟨hne, t, ht⟩, hleaves⟩ := List.forall_mem_cons.1 hleaf
    obtain ⟨hw, hothers⟩ := List.forall_mem_cons.1 hother
    rw [putAll_cons, ht] at hput
    obtain ⟨between, hfirst, hrest⟩ := bind_eq_ok_iff.1 hput
    exact ih (h.put hne hw hfirst) hleaves hothers hrest

/-- **The last scalar that is written at a path stays there**, unless another one comes to stand in
the way to it. -/
theorem standsOrBlocked_of_putAll (hne : path ≠ []) (hleaf : ∀ w ∈ after, IsLeaf w)
    (hother : ∀ w ∈ after, w.1 ≠ path)
    (hput : es.putAll (before ++ (path, .scalar s) :: after) = .ok fs) :
    fs.StandsOrBlocked path s := by
  rw [putAll_append] at hput
  obtain ⟨first, -, hput⟩ := bind_eq_ok_iff.1 hput
  rw [putAll_cons] at hput
  obtain ⟨second, hself, hrest⟩ := bind_eq_ok_iff.1 hput
  have hstands : second.StandsOrBlocked path s := Or.inl (walk_putPath_self hself hne)
  exact hstands.putAll hleaf hother hrest

end Entries

/-! ## Rules that are kept -/

namespace Compiler

variable {n : Nat} {k : Compiler}

/-- The compiler has a cache for `n` rules, switched on or not, with all that holds of one. -/
def Fits (n : Nat) (k : Compiler) : Prop := ∃ on t, Cache.Balanced n on k.cache t

/-- An empty cache fits. -/
theorem Fits.start (pos : 0 < n) (on : Bool) : Fits n ⟨.empty (.atMost n pos) on, 0⟩ :=
  ⟨on, .zero, .start pos on⟩

theorem Fits.size_le (h : k.Fits n) : k.cache.size ≤ n := by
  obtain ⟨on, t, ht⟩ := h
  exact ht.fits

/-- Compiling a line keeps the cache within its size. -/
theorem Fits.compile (h : k.Fits n) (line : List Char) : (k.compile line).2.2.Fits n := by
  obtain ⟨on, t, ht⟩ := h
  have hget := ht.step (.get line)
  rw [Compiler.compile]
  cases hg : k.cache.get line with
  | mk found cache =>
    have hcache : ((Cache.Op.get line).apply k.cache).2 = cache := congrArg Prod.snd hg
    rw [hcache] at hget
    cases found with
    | some r => exact ⟨on, _, hget⟩
    | none => exact ⟨on, _, hget.step (.set line _)⟩

theorem Fits.compileAll (h : k.Fits n) (lines : List (List Char)) :
    (k.compileAll lines).2.2.Fits n := by
  induction lines generalizing k with
  | nil => exact h
  | cons line lines ih => exact ih (h.compile line)

theorem Fits.call (h : k.Fits n) (x : Call) : (k.call x).2.2.Fits n := by
  cases x with
  | compile line => exact h.compile line
  | compileMany lines => exact h.compileAll lines
  | clear =>
    obtain ⟨on, t, ht⟩ := h
    exact ⟨on, _, ht.step .clear⟩

/-- **Whatever a compiler is asked for**, it keeps no more rules than it has room for. -/
theorem Fits.callAll (h : k.Fits n) (calls : List Call) : (k.callAll calls).2.2.Fits n := by
  induction calls generalizing k with
  | nil => exact h
  | cons x xs ih => exact ih (h.call x)

end Compiler

/-! ## The last variable of a field -/

namespace Schema

/-- A mapping of one field to what should be there is a section. -/
theorem isSection_singleton {fields : List (String × (Value → Prop))} {name : String} {v : Value}
    (hname : name ∈ fields.map Prod.fst) (hv : ∀ field ∈ fields, field.1 = name → field.2 v) :
    IsSection fields (.mapping [(.text name, v)]) := by
  refine ⟨[(.text name, v)], rfl, ?_, ?_⟩
  · intro k hk
    exact ⟨name, hname, List.mem_singleton.1 hk⟩
  · intro field hfield w hw
    rw [Entries.get?_cons, Entries.get?_nil] at hw
    split at hw
    · next hsame =>
      cases hw
      exact hv field hfield (Scalar.text.inj (Scalar.same_text_iff.1 hsame)).symm
    · cases hw

/-- A positive size of the cache makes a configuration. -/
theorem isConfiguration_of_maxEntries {n : Int} (hn : 1 ≤ n) :
    IsConfiguration (.mapping [(.text Key.root,
      .mapping [(.text Key.cache, .mapping [(.text Key.maxEntries, .int n)])])]) := by
  have hsize : IsSize (.int n) := ⟨n, hn, rfl⟩
  have hcache : IsCache (.mapping [(.text Key.maxEntries, .int n)]) :=
    isSection_singleton (by simp) (by simpa [Key.enabled, Key.maxEntries] using hsize)
  have hroot : IsRoot (.mapping [(.text Key.cache, .mapping [(.text Key.maxEntries, .int n)])]) :=
    Or.inr (isSection_singleton (by simp) (by simpa [Key.logging, Key.cache] using hcache))
  refine ⟨_, rfl, ?_⟩
  intro w hw
  cases hw
  exact hroot

/-- In a configuration a section is a mapping. -/
theorem IsConfiguration.not_blocks {es : Entries} {part : String}
    (h : IsConfiguration (.mapping [(.text Key.root, .mapping es)]))
    (hpart : part = Key.logging ∨ part = Key.cache) : ¬(Value.mapping es).Blocks [part] := by
  obtain ⟨document, hdocument, hroot⟩ := h
  cases hdocument
  rw [Value.blocks_mapping_cons_iff]
  rintro ⟨v, hv, hblocks⟩
  rcases hroot (.mapping es) rfl with hnull | ⟨sections, hsections, -, hfields⟩
  · cases hnull
  · cases hsections
    have hmapping : ∃ sub : Entries, v = .mapping sub := by
      rcases hpart with rfl | rfl
      · obtain ⟨sub, rfl, -⟩ := hfields (Key.logging, IsLogging) (by simp) v hv
        exact ⟨sub, rfl⟩
      · obtain ⟨sub, rfl, -⟩ := hfields (Key.cache, IsCache) (by simp) v hv
        exact ⟨sub, rfl⟩
    obtain ⟨sub, rfl⟩ := hmapping
    exact Value.not_blocks_mapping_nil sub hblocks

end Schema

/-- Where the layers above that of a source are empty, what stands in that layer is found. -/
theorem Settings.get?_of_layer {s : Settings} (source : Source) {key : String} {v : Value}
    (habove : ∀ u ∈ source.above, s.layer u = [])
    (hwalk : (Value.mapping (s.layer source)).walk (parts key) = some v) (hnull : v ≠ .null) :
    s.get? key = some v := by
  have hnone : s.find? source.above (parts key) = none := by
    apply List.findSome?_eq_none_iff.2
    intro u hu
    obtain ⟨p, ps, hparts⟩ := List.exists_cons_of_ne_nil (parts_ne_nil key)
    rw [habove u hu, hparts]
    rfl
  rw [get?_eq s source, hnone, valueIn?_of_walk hwalk hnull]
  rfl

namespace Environment

variable {R : Document.Reader} {d : Directory} {file : Option String}
  {vars before after : List (String × String)}
  {name text part field key : String} {r t : Settings}

theorem writes_append (before after : List (String × String)) :
    writes (before ++ after) = writes before ++ writes after := List.filterMap_append

theorem writes_cons {path : List String} (hpath : path? name = some path) :
    writes ((name, text) :: vars) = (path, valueOf text) :: writes vars :=
  List.filterMap_cons_some (by rw [hpath]; rfl)

/-- A path that no variable is read as is not written. -/
theorem ne_of_mem_writes {path : List String} (h : ∀ v ∈ vars, path? v.1 ≠ some path)
    {w : List String × Value} (hw : w ∈ writes vars) : w.1 ≠ path := by
  obtain ⟨v, hv, he⟩ := List.mem_filterMap.1 hw
  obtain ⟨p, hp, rfl⟩ := Option.map_eq_some_iff.1 he
  rintro rfl
  exact h v hv hp

/-- No text stands for null. -/
theorem valueOf_ne_null (text : String) : valueOf text ≠ .null := by
  unfold valueOf
  dsimp only
  repeat' split
  all_goals
    intro h
    cases h

/-- The variables are loaded into the settings that there would be without them. -/
theorem start_eq_bind (R : Document.Reader) (d : Directory) (file : Option String)
    (vars : List (String × String)) :
    start R d file vars = start R d file [] >>= fun r => load r vars := by
  unfold start
  split
  · rfl
  · rfl
  · next f _ => cases Settings.initial.loadFile R d f .user <;> rfl

/-- Without variables, nothing stands in the layers above that of the environment. -/
theorem layer_of_start_nil (h : start R d file [] = .ok r) {u : Source}
    (hu : u ∈ Source.above .environment) : r.layer u = [] := by
  have hinitial : Settings.initial.layer u = [] ∧ u ≠ .user := by
    have hlisted : u ∈ [Source.runtime, Source.commandLine] := hu
    obtain rfl | rfl : u = .runtime ∨ u = .commandLine := by simpa using hlisted
    · exact ⟨rfl, by decide⟩
    · exact ⟨rfl, by decide⟩
  obtain ⟨hempty, hne⟩ := hinitial
  unfold start at h
  split at h
  · cases h
    exact hempty
  · cases h
    exact hempty
  · split at h
    · next s hfile =>
      obtain ⟨es, -, -, hs⟩ := Settings.exists_document_of_loadFile hfile
      cases h
      rw [hs, Settings.layer_replace_of_ne _ _ hne, hempty]
    · cases h

/-- Variables that are loaded were collected. -/
theorem exists_collect_of_load (h : load r vars = .ok t) : ∃ es, collect [] vars = .ok es := by
  rw [load] at h
  split at h
  · cases h
  · next hes => exact ⟨[], hes⟩
  · next es _ hes => exact ⟨es, hes⟩

/-- Variables that are no settings write nothing. -/
theorem writes_of_none (h : ∀ v ∈ vars, path? v.1 = none) : writes vars = [] := by
  apply List.filterMap_eq_nil_iff.2
  intro v hv
  rw [h v hv]
  rfl

/-- The name of the variable for the size of the cache. -/
def maxEntriesName : String := "IGNOREMATCH_CACHE__MAX_ENTRIES"

theorem path?_maxEntriesName : path? maxEntriesName = some [Key.cache, Key.maxEntries] := by
  decide +kernel

/-- What variables make is loaded if it is a configuration. -/
theorem load_of_collect {e : Scalar × Value} {es : Entries} (hes : collect [] vars = .ok (e :: es))
    (hconf : Schema.IsConfiguration (.mapping [(.text Key.root, .mapping (e :: es))])) :
    load r vars = .ok (r.replace .environment [(.text Key.root, .mapping (e :: es))]) :=
  (load_eq_ok_iff hes).2 (Or.inr ⟨List.cons_ne_nil e es, hconf, rfl⟩)

/-- A positive size of the cache can be loaded, if no other variable is a setting. -/
theorem exists_start {n : Int} (hn : 1 ≤ n) (hvalue : valueOf text = .int n)
    (hr : start R d file [] = .ok r) (hothers : ∀ v ∈ before ++ after, path? v.1 = none) :
    ∃ t, start R d file (before ++ (maxEntriesName, text) :: after) = .ok t := by
  obtain ⟨hbefore, hafter⟩ := List.forall_mem_append.1 hothers
  have hes : collect [] (before ++ (maxEntriesName, text) :: after)
      = .ok [(.text Key.cache, .mapping [(.text Key.maxEntries, .int n)])] := by
    rw [collect_eq_putAll, writes_append, writes_cons path?_maxEntriesName, writes_of_none hbefore,
      writes_of_none hafter, hvalue]
    rfl
  rw [start_eq_bind, hr]
  exact ⟨_, load_of_collect hes (Schema.isConfiguration_of_maxEntries hn)⟩

/-- **The last variable of a field counts.**  Settings that a program starts with give under the key
of a field what the last variable that is read as the field stands for. -/
theorem get?_of_start (hpart : part = Key.logging ∨ part = Key.cache)
    (hkey : Settings.parts key = [Key.root, part, field]) (hname : path? name = some [part, field])
    (hafter : ∀ v ∈ after, path? v.1 ≠ some [part, field])
    (h : start R d file (before ++ (name, text) :: after) = .ok t) :
    t.get? key = some (valueOf text) := by
  rw [start_eq_bind] at h
  obtain ⟨r, hr, hload⟩ := bind_eq_ok_iff.1 h
  obtain ⟨es, hes⟩ := exists_collect_of_load hload
  have hstands : ∃ s, valueOf text = .scalar s ∧ es.StandsOrBlocked [part, field] s := by
    obtain ⟨s, hs, -⟩ := exists_scalar_valueOf text
    rw [collect_eq_putAll, writes_append, writes_cons hname, hs] at hes
    exact ⟨s, hs, Entries.standsOrBlocked_of_putAll (List.cons_ne_nil _ _)
      (fun w hw => (of_mem_writes hw).1) (fun w hw => ne_of_mem_writes hafter hw) hes⟩
  obtain ⟨s, hs, hstands⟩ := hstands
  rcases (load_eq_ok_iff hes).1 hload with ⟨rfl, -⟩ | ⟨-, hconf, rfl⟩
  · -- something was written
    rcases hstands with hwalk | hblocks
    · cases hwalk
    · exact absurd hblocks (Value.not_blocks_mapping_of_nil _)
  · have hwalk : (Value.mapping es).walk [part, field] = some (valueOf text) := by
      rw [hs]
      exact hstands.resolve_right (hconf.not_blocks hpart)
    apply Settings.get?_of_layer .environment
    · intro u hu
      have hne : u ≠ .environment := by
        rintro rfl
        exact absurd (Source.mem_above.1 hu) (Nat.lt_irrefl _)
      rw [Settings.layer_replace_of_ne r _ hne, layer_of_start_nil hr hu]
    · rw [Settings.layer_replace_self, hkey, Value.walk_cons]
      exact hwalk
    · exact valueOf_ne_null text

/-! ## From texts to rules -/

/-- A compiler keeps as many rules at most as the settings say. -/
theorem exists_compiler {n : Int} (hn : 1 ≤ n)
    (hget : ∀ default, t.get (Key.full Key.cache Key.maxEntries) default = .int n) :
    ∃ k, Compiler.ofSettings t = .ok k ∧
      ∀ calls, ((k.callAll calls).2.2.cache.size : Int) ≤ n := by
  obtain ⟨m, rfl⟩ := Int.eq_ofNat_of_zero_le (by omega : 0 ≤ n)
  have pos : 0 < m := by omega
  refine ⟨_, Compiler.ofSettings_of_int pos (hget _), ?_⟩
  intro calls
  exact Int.ofNat_le.2 ((Compiler.Fits.start pos _).callAll calls).size_le

/-- **Integers survive the environment.**  The text of an integer with no more digits than are read
stands for that integer, and for nothing else.  If the integer is positive and the variable for the
size of the cache has this text, then a program can start with its settings, provided that it could
without any variable, and that no other variable is a setting.  Whatever the other variables are,
as long as none behind this one is another spelling of its name, the settings that a program starts
with have the integer as the size of the cache, and a compiler that is made of them never keeps more
rules, whatever it is asked for. -/
theorem integers_survive_environment {n : Int}
    (hdigits : (Number.digits n.natAbs).length ≤ Number.maxDigits) :
    let text := String.ofList (Number.intText n)
    valueOf text = .int n ∧
    (1 ≤ n → ∀ (R : Document.Reader) (d : Directory) (file : Option String)
        (before after : List (String × String)),
      let vars := before ++ (maxEntriesName, text) :: after
      (∀ r, start R d file [] = .ok r → (∀ v ∈ before ++ after, path? v.1 = none) →
        ∃ t, start R d file vars = .ok t) ∧
      ∀ t, start R d file vars = .ok t → (∀ v ∈ after, path? v.1 ≠ path? maxEntriesName) →
        (∀ default, t.get (Key.full Key.cache Key.maxEntries) default = .int n) ∧
        ∃ k, Compiler.ofSettings t = .ok k ∧
          ∀ calls, ((k.callAll calls).2.2.cache.size : Int) ≤ n) := by
  intro text
  have hvalue : valueOf text = .int n := valueOf_intText hdigits
  refine ⟨hvalue, ?_⟩
  intro hn R d file before after vars
  constructor
  · intro r hr hothers
    exact exists_start hn hvalue hr hothers
  · intro t ht hafter
    rw [path?_maxEntriesName] at hafter
    have hget : t.get? (Key.full Key.cache Key.maxEntries) = some (.int n) := by
      rw [← hvalue]
      exact get?_of_start (Or.inr rfl) rfl path?_maxEntriesName hafter ht
    have hall := Settings.get_of_get? hget
    exact ⟨hall, exists_compiler hn hall⟩

/-- The name in another spelling. -/
def otherSpelling : String := "IGNOREMATCH_cache__max_entries"

theorem path?_otherSpelling : path? otherSpelling = some [Key.cache, Key.maxEntries] := by
  decide +kernel

/-- A size that no machine word holds, behind another spelling of the name, and in front of another
field. -/
theorem integers_survive_environment_of_wide_integer :
    let n : Int := 18446744073709551617
    let text := String.ofList (Number.intText n)
    let switch := ("IGNOREMATCH_CACHE__ENABLED", "yes")
    let d : Directory := { base := ["home"], nodes := [] }
    text = "18446744073709551617" ∧ valueOf text = .int n ∧
      (∃ t, start Document.plain d none [("HOME", "/home"), (maxEntriesName, text)] = .ok t) ∧
      ∃ t k, start Document.plain d none [(otherSpelling, "5"), (maxEntriesName, text), switch]
          = .ok t ∧
        t.get (Key.full Key.cache Key.maxEntries) .null = .int n ∧
        Compiler.ofSettings t = .ok k ∧
        ∀ calls, ((k.callAll calls).2.2.cache.size : Int) ≤ n := by
  intro n text switch d
  have hdigits : (Number.digits n.natAbs).length ≤ Number.maxDigits := by decide +kernel
  obtain ⟨hvalue, hsize⟩ := integers_survive_environment hdigits
  have htext : text = "18446744073709551617" := by decide +kernel
  have hhome : ∀ v ∈ [("HOME", "/home")] ++ [], path? v.1 = none := by decide +kernel
  have hfield : path? switch.1 = some [Key.cache, Key.enabled] := by decide +kernel
  have hswitch : ∀ v ∈ [switch], path? v.1 ≠ path? maxEntriesName := by
    rw [List.forall_mem_singleton, hfield, path?_maxEntriesName]
    decide
  have hes : collect [] [(otherSpelling, "5"), (maxEntriesName, text), switch]
      = .ok [(.text Key.cache, .mapping [(.text Key.maxEntries, .int n),
        (.text Key.enabled, .bool true)])] := by
    have hfive : valueOf "5" = .int 5 := by rfl
    have hyes : valueOf "yes" = .bool true := by rfl
    rw [collect_eq_putAll, writes_cons path?_otherSpelling, writes_cons path?_maxEntriesName,
      writes_cons hfield, hfive, hvalue, hyes]
    rfl
  have hload := load_of_collect (r := .initial) hes (Schema.check_eq_ok_iff_isConfiguration.1 rfl)
  obtain ⟨hget, k, hk, hfits⟩ :=
    (hsize (by decide) Document.plain d none [(otherSpelling, "5")] [switch]).2 _ hload hswitch
  exact ⟨htext, hvalue, (hsize (by decide) Document.plain d none [("HOME", "/home")] []).1 _ rfl hhome,
    _, k, hload, hget .null, hk, hfits⟩

/-- **Another spelling of the name counts as much.**  Behind the mark, names are read in small
letters, so a later variable can take the place of the one for the size of the cache. -/
theorem other_spelling_counts :
    let vars := [(maxEntriesName, String.ofList (Number.intText 5)), (otherSpelling, "7")]
    let d : Directory := { base := ["home"], nodes := [] }
    ∃ t k, start Document.plain d none vars = .ok t ∧
      t.get (Key.full Key.cache Key.maxEntries) .null = .int 7 ∧
      Compiler.ofSettings t = .ok k ∧
      (k.compileAll (["a", "b", "c", "d", "e", "f"].map String.toList)).2.2.cache.size = 6 := by
  intro vars d
  have hseven : valueOf "7" = .int 7 := by rfl
  have hes : collect [] vars
      = .ok [(.text Key.cache, .mapping [(.text Key.maxEntries, .int 7)])] := by
    rw [collect_eq_putAll, writes_cons path?_maxEntriesName, writes_cons path?_otherSpelling,
      valueOf_intText (by decide +kernel), hseven]
    rfl
  have hconf := Schema.isConfiguration_of_maxEntries (by decide : (1 : Int) ≤ 7)
  have hload := load_of_collect (r := .initial) hes hconf
  exact ⟨_, _, hload, rfl, rfl, rfl⟩

end Environment

end IgnoreRules
