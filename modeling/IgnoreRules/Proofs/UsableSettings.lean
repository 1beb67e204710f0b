/-
# Usable settings

What was accepted once never fails later.  A program loads settings, empties layers, and may ask for
everything to be logged; whatever comes of that, the defaults stay below the other layers, every
layer is accepted, and so each value that the program looks up is there and can be used.

* `Settings.Change.Checked` : the changes that a program makes;
* `Settings.Sound.after` : every layer stays accepted, and the defaults stay in their place;
* `Settings.Usable` : loggers and compilers can be made of settings;
* `accepted_settings_are_usable` : settings are usable, however they were loaded.
-/
import IgnoreRules.Proofs.PatternAssembly
import IgnoreRules.Proofs.RunReport
import IgnoreRules.Proofs.SettingsHistory

namespace IgnoreRules.Settings

variable {s : Settings} {key : String} {v : Value}

/-! ## Sound settings -/

/-- The change checks what it writes, or asks for everything to be logged.  It never loads anything
in place of the defaults. -/
def Change.Checked : Change → Prop
  | .set key value source =>
      key = Key.full Key.logging Key.level ∧ value = .text Log.Severity.debug.name ∧
        source = .commandLine
  | .load _ source => source ≠ .defaults
  | .loadFile _ _ _ source => source ≠ .defaults
  | .clear _ => True
  | .clearAll => True

/-- Every layer is accepted, and that of the defaults is the initial one. -/
structure Sound (s : Settings) : Prop where
  valid : s.Valid
  defaults : s.layer .defaults = defaultLayer

/-- A program starts with sound settings. -/
theorem Sound.start {R : Document.Reader} {d : Directory} {file : Option String}
    {vars : List (String × String)} (h : Environment.start R d file vars = .ok s) : s.Sound :=
  ⟨Environment.valid_start h, Environment.defaults_start h⟩

/-- Checked changes leave the defaults alone. -/
theorem layer_defaults_step (s : Settings) {c : Change} (hc : c.Checked) :
    (s.step c).layer .defaults = s.layer .defaults := by
  rcases layer_step s c .defaults with hsame | hwrites
  · exact hsame
  · cases c with
    | set key value source =>
      obtain ⟨-, -, rfl⟩ := hc
      exact absurd hwrites.1 (by decide)
    | load document source => exact absurd hwrites.1 hc
    | loadFile R d file source => exact absurd hwrites.1 hc
    | clear source => exact absurd rfl hwrites.1
    | clearAll => exact absurd rfl hwrites.1

theorem Sound.step (hs : s.Sound) {c : Change} (hc : c.Checked) : (s.step c).Sound := by
  refine ⟨?_, (layer_defaults_step s hc).trans hs.defaults⟩
  cases c with
  | set key value source =>
    -- the one value that is written without being checked
    obtain ⟨rfl, rfl, rfl⟩ := hc
    rw [Settings.step]
    cases hset : Change.apply s (.set _ _ _) with
    | error e => exact hs.valid
    | ok t => exact hs.valid.set_debug hset
  | load document source => exact hs.valid.step rfl
  | loadFile R d file source => exact hs.valid.step rfl
  | clear source => exact hs.valid.step rfl
  | clearAll => exact hs.valid.step rfl

/-- **Checked changes keep settings sound**, as many of them as there are. -/
theorem Sound.after (hs : s.Sound) {changes : List Change} (hc : ∀ c ∈ changes, c.Checked) :
    (s.after changes).Sound :=
  after_induction (fun _ _ hs hc => hs.step hc) hs hc

/-! ## Values that are found -/

/-- Where a layer has a value, one is found. -/
theorem exists_get?_of_layer {source : Source}
    (h : valueIn? (s.layer source) (parts key) = some v) : ∃ w, s.get? key = some w := by
  rw [← Option.isSome_iff_exists, get?, find?, List.findSome?_isSome_iff]
  exact ⟨source, List.mem_reverse.2 source.mem_ascending, by rw [h]; rfl⟩

namespace Sound

/-- What the defaults have a value for is found. -/
theorem exists_get? (h : s.Sound) (hv : valueIn? defaultLayer (parts key) = some v) :
    ∃ w, s.get? key = some w := by
  rw [← h.defaults] at hv
  exact exists_get?_of_layer hv

/-- The level is the name of a severity. -/
theorem exists_level (h : s.Sound) : ∃ name severity,
    s.get? (Key.full Key.logging Key.level) = some (.text name) ∧
      Log.Severity.ofName? name = some severity := by
  have hdefault : valueIn? defaultLayer (parts (Key.full Key.logging Key.level))
      = some (.text defaultLevel) := rfl
  obtain ⟨v, hv⟩ := h.exists_get? hdefault
  obtain ⟨name, severity, rfl, hname⟩ := Schema.checkLevel_eq_ok_iff.1 (h.valid.checkLevel hv)
  exact ⟨name, severity, hv, hname⟩

/-- There is no log file, or it has a name.  The defaults name none. -/
theorem file_cases (h : s.Sound) : s.get (Key.full Key.logging Key.file) .null = .null ∨
    ∃ name, name ≠ "" ∧ s.get? (Key.full Key.logging Key.file) = some (.text name) := by
  cases hv : s.get? (Key.full Key.logging Key.file) with
  | none =>
    left
    rw [get, hv]
    rfl
  | some v =>
    rcases Schema.checkFile_eq_ok_iff.1 (h.valid.checkFile hv) with rfl | ⟨name, rfl, hne⟩
    · exact Or.inl (get_of_get? hv .null)
    · exact Or.inr ⟨name, hne, rfl⟩

/-- The switch of the cache is a truth value. -/
theorem exists_enabled (h : s.Sound) :
    ∃ b, s.get? (Key.full Key.cache Key.enabled) = some (.bool b) := by
  have hdefault : valueIn? defaultLayer (parts (Key.full Key.cache Key.enabled))
      = some (.bool true) := rfl
  obtain ⟨v, hv⟩ := h.exists_get? hdefault
  obtain ⟨b, rfl⟩ := Schema.checkEnabled_eq_ok_iff.1 (h.valid.checkEnabled hv)
  exact ⟨b, hv⟩

/-- The size of the cache is a positive integer. -/
theorem exists_maxEntries (h : s.Sound) :
    ∃ n : Nat, 0 < n ∧ s.get? (Key.full Key.cache Key.maxEntries) = some (.int n) := by
  have hdefault : valueIn? defaultLayer (parts (Key.full Key.cache Key.maxEntries))
      = some (.int defaultMaxEntries) := rfl
  obtain ⟨v, hv⟩ := h.exists_get? hdefault
  obtain ⟨n, hn, rfl⟩ := Schema.checkMaxEntries_eq_ok_iff.1 (h.valid.checkMaxEntries hv)
  exact ⟨n, hn, hv⟩

end Sound

/-! ## Usable settings -/

/-- A program can work with the settings. -/
structure Usable (s : Settings) : Prop where
  /-- The level is a text that every logger can be set to. -/
  level : ∃ name, (∀ default, s.get (Key.full Key.logging Key.level) default = .text name) ∧
    ∀ (g : Log.Registry) (logger : String), ∃ g', g.setLevel logger (.named name) = .ok g'
  /-- The log file is null or a text that is not empty. -/
  file : s.get (Key.full Key.logging Key.file) .null = .null ∨
    ∃ name, name ≠ "" ∧ ∀ default, s.get (Key.full Key.logging Key.file) default = .text name
  /-- The switch of the cache is a truth value. -/
  enabled : ∃ b, ∀ default, s.get (Key.full Key.cache Key.enabled) default = .bool b
  /-- The size of the cache is a positive integer, and no truth value. -/
  maxEntries : ∃ n : Nat, 0 < n ∧
    ∀ default, s.get (Key.full Key.cache Key.maxEntries) default = .int n
  /-- The loggers can be set up in every session, when there is no log file. -/
  setUp : s.get (Key.full Key.logging Key.file) .null = .null →
    ∀ session : CommandLine.Session, ∃ next, session.setUp s = (none, next)
  /-- There is a compiler, and nothing goes wrong with any line that it compiles at any time. -/
  compiler : ∃ k, Compiler.ofSettings s = .ok k ∧ ∀ calls line,
    Rule.assemble line = .ok ((k.callAll calls).2.2.compile line).1.rule

/-- **Sound settings are usable.** -/
theorem Sound.usable (h : s.Sound) : s.Usable where
  level := by
    obtain ⟨name, severity, hget, hname⟩ := h.exists_level
    refine ⟨name, get_of_get? hget, ?_⟩
    intro g logger
    refine ⟨g.setChannel logger { g.channel logger with level := severity.rank }, ?_⟩
    rw [Log.Registry.setLevel, Log.Level.rank?, hname]
    rfl
  file := by
    rcases h.file_cases with hnull | ⟨name, hne, hget⟩
    · exact Or.inl hnull
    · exact Or.inr ⟨name, hne, get_of_get? hget⟩
  enabled := by
    obtain ⟨b, hget⟩ := h.exists_enabled
    exact ⟨b, get_of_get? hget⟩
  maxEntries := by
    obtain ⟨n, hn, hget⟩ := h.exists_maxEntries
    exact ⟨n, hn, get_of_get? hget⟩
  setUp := by
    intro hnull session
    have hfile : CommandLine.logFile? s = none := by
      rw [CommandLine.logFile?, hnull]
    have hlog : CommandLine.CanLog s session.directory := by
      -- there is no file to be opened
      intro file hsome
      rw [hfile] at hsome
      cases hsome
    obtain ⟨next, hnext, -⟩ := CommandLine.Session.exists_setUp_of_valid h.valid hlog
    exact ⟨next, hnext⟩
  compiler := by
    obtain ⟨n, pos, enabled, hk⟩ := Compiler.exists_ofSettings_of_valid h.valid
    refine ⟨_, hk, ?_⟩
    intro calls line
    have hfaithful := ((Compiler.Faithful.ofSettings hk).callAll calls).2
    rw [Rule.assemble_eq_ok, (hfaithful.compile line).1]

/-- **Accepted settings never fail later.**  A program starts with settings that can be loaded, then
loads documents, those of files among them, whatever reads these, into other layers than that of
the defaults, empties layers, and asks for everything to be logged, in any order, and whether or not this succeeds.  The
settings it ends up with are usable. -/
theorem accepted_settings_are_usable {R : Document.Reader} {d : Directory} {file : Option String}
    {vars : List (String × String)} (hstart : Environment.start R d file vars = .ok s)
    {changes : List Change} (hchanges : ∀ c ∈ changes, c.Checked) : (s.after changes).Usable := by
  have hsound : s.Sound := Sound.start hstart
  exact (hsound.after hchanges).usable

/-- Settings from the environment, where null stands under the root key of the command line, so that
nothing can be written there, and where a document is refused. -/
theorem accepted_settings_are_usable_over_null :
    let d : Directory := { base := ["home"], nodes := [] }
    let vars := [("IGNOREMATCH_LOGGING__LEVEL", "info"), ("IGNOREMATCH_CACHE__MAX_ENTRIES", "1")]
    let logAll : Change :=
      .set (Key.full Key.logging Key.level) (.text Log.Severity.debug.name) .commandLine
    let changes : List Change := [
      .load (.mapping [(.text Key.root, .null)]) .commandLine,
      logAll,
      .load (.mapping [(.text Key.root, .mapping [(.text Key.cache, .null)])]) .runtime,
      .loadFile Document.plain d "one.json" .user,
      .clear .defaults]
    ∃ s, Environment.start Document.plain d none vars = .ok s ∧ (s.after changes).Usable := by
  intro d vars logAll changes
  have hchanges : ∀ c ∈ changes, c.Checked := by
    simp [changes, logAll, Change.Checked]
  have hok : (Environment.start Document.plain d none vars).isOk = true := by decide +kernel
  obtain ⟨s, hstart⟩ := exists_eq_ok_of_isOk hok
  exact ⟨s, hstart, accepted_settings_are_usable hstart hchanges⟩

end IgnoreRules.Settings
