/-
# Valid settings

A layer is checked when it is loaded, so that what is looked up later can be used: a level is the
name of a severity, a file has a name, and the size of the cache is a positive integer.

* `Settings.Valid` holds of settings all of whose layers are accepted;
* `Environment.layer_start` : what a program finds when it starts;
* `Settings.Valid.set_debug` : logging everything keeps settings valid;
* `valid_of_settingsOf` : the settings of a test are valid;
* `exists_rank_of_valid`, `exists_ofSettings_of_valid` : loggers and compilers can be made of them.
-/
import IgnoreRules.CommandLine.Session
import IgnoreRules.Proofs.AcceptedConfigurations
import IgnoreRules.Proofs.CompilerCalls

namespace IgnoreRules

namespace Settings

variable {s t : Settings} {source : Source} {document v : Value} {es : Entries} {key : String}

/-! ## Loading -/

/-- A document has entries if it is a mapping that passes the check. -/
theorem entriesOf_eq_ok_iff {origin : String} : entriesOf document origin = .ok es ↔
    document = .mapping es ∧ Schema.check document = .ok () := by
  constructor
  · intro h
    unfold entriesOf at h
    split at h
    · cases h
    · cases h
    · next es hcheck =>
      cases h
      exact ⟨rfl, hcheck⟩
    · cases h
  · rintro ⟨rfl, hcheck⟩
    simp only [entriesOf, hcheck]

/-- A document that is loaded is a mapping that was checked. -/
theorem load_eq_ok_iff {origin : String} : s.load document source origin = .ok t ↔
    ∃ es, document = .mapping es ∧ Schema.check document = .ok () ∧ t = s.replace source es := by
  constructor
  · intro h
    rw [load] at h
    split at h
    · cases h
    · next es hes =>
      obtain ⟨hdocument, hcheck⟩ := entriesOf_eq_ok_iff.1 hes
      cases h
      exact ⟨es, hdocument, hcheck, rfl⟩
  · rintro ⟨es, hdocument, hcheck, rfl⟩
    rw [load, entriesOf_eq_ok_iff.2 ⟨hdocument, hcheck⟩]

/-- The document of a file is a mapping without repeated keys. -/
theorem exists_mapping_of_documentOf {R : Document.Reader} {d : Directory} {file : String}
    (h : documentOf R d file = .ok v) : ∃ es : Entries, v = .mapping es ∧ es.WellFormed := by
  rw [documentOf] at h
  split at h
  · cases h
  · split at h
    · cases h
    · cases h
    · cases h
    · next es hread =>
      cases h
      exact ⟨es, rfl, R.wellFormed hread⟩
    · cases h
      exact ⟨[], rfl, Entries.wellFormed_nil⟩
    · cases h

/-- A file that is loaded holds a mapping, or nothing. -/
theorem exists_document_of_loadFile {R : Document.Reader} {d : Directory} {file : String}
    (h : s.loadFile R d file source = .ok t) :
    ∃ es : Entries, es.WellFormed ∧ Schema.check (.mapping es) = .ok () ∧
      t = s.replace source es := by
  rw [loadFile] at h
  split at h
  · cases h
  · next document hdocument =>
    obtain ⟨es, rfl, hwell⟩ := exists_mapping_of_documentOf hdocument
    obtain ⟨_, ⟨⟩, hcheck, rfl⟩ := load_eq_ok_iff.1 h
    exact ⟨es, hwell, hcheck, rfl⟩

/-! ## Layers -/

/-- Every layer is a configuration. -/
def Valid (s : Settings) : Prop := ∀ source, Schema.check (.mapping (s.layer source)) = .ok ()

/-- The first settings are valid. -/
theorem Valid.initial : Valid initial := by
  intro source
  cases source <;> rfl

/-- A layer that passes the check keeps settings valid. -/
theorem Valid.replace (h : Valid s) (hes : Schema.check (.mapping es) = .ok ()) :
    Valid (s.replace source es) := by
  intro t
  by_cases ht : t = source
  · subst ht
    rw [layer_replace_self]
    exact hes
  · rw [layer_replace_of_ne s es ht]
    exact h t

/-- A layer that is replaced has what the new one has, and all others stay. -/
theorem layer_replace_cases (s : Settings) (t source : Source) {P : Entries → Prop} (h : P es) :
    (s.replace t es).layer source = s.layer source ∨
      t = source ∧ P ((s.replace t es).layer source) := by
  by_cases ht : source = t
  · subst ht
    rw [layer_replace_self]
    exact Or.inr ⟨rfl, h⟩
  · exact Or.inl (layer_replace_of_ne s es ht)

/-- Logging everything keeps settings valid: in an accepted layer nothing but the level changes. -/
theorem Valid.set_debug (h : Valid s)
    (hset : s.set (Key.full Key.logging Key.level) (.text Log.Severity.debug.name) source = .ok t) :
    Valid t := by
  rw [set] at hset
  split at hset
  · next es hput =>
    cases hset
    rw [Entries.putPath_eq_merge hput]
    have hwell : (Entries.single (.text Log.Severity.debug.name)
        (parts (Key.full Key.logging Key.level))).WellFormed :=
      Entries.wellFormed_single (Value.wellFormed_scalar _) _
    exact h.replace (Schema.check_merge hwell (h source) rfl)
  · cases hset

/-- No mapping in a layer holds a key twice. -/
def WellFormed (s : Settings) : Prop := ∀ source, (s.layer source).WellFormed

theorem WellFormed.initial : WellFormed initial := by
  intro source
  cases source <;> simp [Settings.initial, defaultLayer, Entries.WellFormed, Key.logging, Key.cache,
    Key.level, Key.file, Key.enabled, Key.maxEntries]

/-! ## Values -/

theorem get_of_get? (h : s.get? key = some v) (default : Value) : s.get key default = v := by
  rw [get, h]
  rfl

/-- A value that is found stands in one of the layers. -/
theorem exists_walk_of_get? (h : s.get? key = some v) :
    ∃ source, (Value.mapping (s.layer source)).walk (parts key) = some v := by
  obtain ⟨source, -, hv⟩ := List.exists_of_findSome?_eq_some h
  exact ⟨source, (Option.filter_eq_some_iff.1 hv).1⟩

/-- Valid settings have a level that passes the check. -/
theorem Valid.checkLevel (h : Valid s)
    (hv : s.get? (Key.full Key.logging Key.level) = some v) : Schema.checkLevel v = .ok () := by
  obtain ⟨source, hw⟩ := exists_walk_of_get? hv
  exact Schema.checkLevel_of_walk (h source) hw

theorem Valid.checkFile (h : Valid s)
    (hv : s.get? (Key.full Key.logging Key.file) = some v) : Schema.checkFile v = .ok () := by
  obtain ⟨source, hw⟩ := exists_walk_of_get? hv
  exact Schema.checkFile_of_walk (h source) hw

theorem Valid.checkEnabled (h : Valid s)
    (hv : s.get? (Key.full Key.cache Key.enabled) = some v) : Schema.checkEnabled v = .ok () := by
  obtain ⟨source, hw⟩ := exists_walk_of_get? hv
  exact Schema.checkEnabled_of_walk (h source) hw

theorem Valid.checkMaxEntries (h : Valid s)
    (hv : s.get? (Key.full Key.cache Key.maxEntries) = some v) :
    Schema.checkMaxEntries v = .ok () := by
  obtain ⟨source, hw⟩ := exists_walk_of_get? hv
  exact Schema.checkMaxEntries_of_walk (h source) hw

end Settings

/-! ## Loggers and compilers -/

/-- **The level of valid settings can be set.** -/
theorem CommandLine.exists_rank_of_valid {s : Settings} (h : s.Valid) :
    ∃ n, (levelOf s).rank? = .ok n := by
  rw [levelOf, Settings.get]
  cases hv : s.get? (Key.full Key.logging Key.level) with
  | none => exact ⟨Log.Severity.warning.rank, rfl⟩
  | some v =>
    obtain ⟨name, severity, rfl, hname⟩ := Schema.checkLevel_eq_ok_iff.1 (h.checkLevel hv)
    refine ⟨severity.rank, ?_⟩
    show (Log.Level.named name).rank? = _
    rw [Log.Level.rank?, hname]

/-- **A compiler can be made of valid settings.** -/
theorem Compiler.exists_ofSettings_of_valid {s : Settings} (h : s.Valid) :
    ∃ n pos enabled, ofSettings s = .ok ⟨.empty (.atMost n pos) enabled, 0⟩ := by
  have hmax : ∃ n : Nat, 0 < n ∧
      s.get (Key.full Key.cache Key.maxEntries) (.int Settings.defaultMaxEntries) = .int n := by
    rw [Settings.get]
    cases hv : s.get? (Key.full Key.cache Key.maxEntries) with
    | none => exact ⟨1024, by decide, rfl⟩
    | some v => exact Schema.checkMaxEntries_eq_ok_iff.1 (h.checkMaxEntries hv)
  obtain ⟨n, pos, hn⟩ := hmax
  exact ⟨n, pos, _, ofSettings_of_int pos hn⟩

/-! ## Settings of a program that starts -/

namespace Environment

variable {R : Document.Reader} {d : Directory} {file : Option String} {s t : Settings}
  {vars : List (String × String)}

/-- What a variable stands for is a scalar. -/
theorem wellFormed_valueOf (text : String) : (valueOf text).WellFormed := by
  rw [valueOf]
  repeat' split
  all_goals exact trivial

/-- The mapping that variables make holds no key twice. -/
theorem wellFormed_of_collect {es fs : Entries} (hes : es.WellFormed)
    (h : collect es vars = .ok fs) : fs.WellFormed := by
  induction vars generalizing es with
  | nil =>
    cases h
    exact hes
  | cons e vars ih =>
    obtain ⟨name, text⟩ := e
    rw [collect] at h
    split at h
    · exact ih hes h
    · split at h
      · next hput => exact ih (hes.putPath (wellFormed_valueOf text) hput) h
      · cases h

/-- The environment replaces its own layer, or none. -/
theorem load_cases (h : load s vars = .ok t) :
    t = s ∨ ∃ es : Entries, es.WellFormed ∧ Schema.check (.mapping es) = .ok () ∧
      t = s.replace .environment es := by
  rw [load] at h
  split at h
  · cases h
  · cases h
    exact Or.inl rfl
  · next es _ hcollect =>
    obtain ⟨_, ⟨⟩, hcheck, rfl⟩ := Settings.load_eq_ok_iff.1 h
    have hwell := wellFormed_of_collect Entries.wellFormed_nil hcollect
    have hroot : Entries.WellFormed [(.text Key.root, .mapping es)] :=
      ⟨fun _ he => absurd he List.not_mem_nil, hwell, trivial⟩
    exact Or.inr ⟨_, hroot, hcheck, rfl⟩

/-- **Every layer that a program starts with** is the initial one, or one that was read and checked,
which is never that of the defaults. -/
theorem layer_start (h : start R d file vars = .ok s) (source : Source) :
    s.layer source = Settings.initial.layer source ∨
      source ≠ .defaults ∧ (s.layer source).WellFormed ∧
        Schema.check (.mapping (s.layer source)) = .ok () := by
  -- what replaces a layer was read and checked
  have hreplace : ∀ {r : Settings} {t : Source} {es : Entries}, t ≠ .defaults → es.WellFormed →
      Schema.check (.mapping es) = .ok () →
      (r.replace t es).layer source = r.layer source ∨ source ≠ .defaults ∧
        ((r.replace t es).layer source).WellFormed ∧
          Schema.check (.mapping ((r.replace t es).layer source)) = .ok () := by
    intro r t es ht hwell hcheck
    rcases Settings.layer_replace_cases r t source
      (P := fun es => es.WellFormed ∧ Schema.check (.mapping es) = .ok ()) ⟨hwell, hcheck⟩ with
      hsame | ⟨rfl, hes⟩
    · exact Or.inl hsame
    · exact Or.inr ⟨ht, hes⟩
  -- what the environment loads is added to what was there before
  have hload : ∀ {r : Settings}, load r vars = .ok s →
      s.layer source = r.layer source ∨ source ≠ .defaults ∧ (s.layer source).WellFormed ∧
        Schema.check (.mapping (s.layer source)) = .ok () := by
    intro r hr
    rcases load_cases hr with rfl | ⟨es, hwell, hcheck, rfl⟩
    · exact Or.inl rfl
    · exact hreplace (by decide) hwell hcheck
  unfold start at h
  split at h
  · exact hload h
  · exact hload h
  · split at h
    · next r hfile =>
      rcases hload h with hsame | hnew
      · obtain ⟨es, hwell, hcheck, rfl⟩ := Settings.exists_document_of_loadFile hfile
        rw [hsame]
        exact hreplace (by decide) hwell hcheck
      · exact Or.inr hnew
    · cases h

/-- Settings that were loaded at the start are well-formed. -/
theorem wellFormed_start (h : start R d file vars = .ok s) : s.WellFormed := by
  intro source
  rcases layer_start h source with hinit | ⟨-, hwell, -⟩
  · rw [hinit]
    exact Settings.WellFormed.initial source
  · exact hwell

/-- Settings that were loaded at the start are valid. -/
theorem valid_start (h : start R d file vars = .ok s) : s.Valid := by
  intro source
  rcases layer_start h source with hinit | ⟨-, -, hcheck⟩
  · rw [hinit]
    exact Settings.Valid.initial source
  · exact hcheck

/-- A program starts with the defaults in their place. -/
theorem defaults_start (h : start R d file vars = .ok s) :
    s.layer .defaults = Settings.defaultLayer := by
  rcases layer_start h .defaults with hinit | ⟨hne, -⟩
  · exact hinit
  · exact absurd rfl hne

end Environment

/-! ## The settings of a test -/

/-- **The settings of a test are valid**: every layer was checked, and the command line adds a
level at most. -/
theorem CommandLine.valid_of_settingsOf {u : Surroundings} {a : Arguments} {d : Directory}
    {s : Settings} (h : settingsOf u a d = .ok s) : s.Valid := by
  rw [settingsOf] at h
  obtain ⟨start, hstart, h⟩ := bind_eq_ok_iff.1 h
  have hvalid := Environment.valid_start hstart
  have hdebug : ∀ {r : Settings}, r.Valid → (if a.debug then
      r.set (Key.full Key.logging Key.level) (.text Log.Severity.debug.name) .commandLine
      else .ok r) = .ok s → s.Valid := by
    intro r hr hset
    split at hset
    · exact hr.set_debug hset
    · cases hset
      exact hr
  cases hconfig : a.config with
  | none =>
    rw [hconfig] at h
    exact hdebug hvalid h
  | some file =>
    rw [hconfig] at h
    dsimp only at h
    by_cases hempty : file.isEmpty = true
    · rw [if_pos hempty] at h
      exact hdebug hvalid h
    · rw [if_neg hempty] at h
      obtain ⟨loaded, hfile, h⟩ := bind_eq_ok_iff.1 h
      obtain ⟨es, -, hes, rfl⟩ := Settings.exists_document_of_loadFile hfile
      exact hdebug (hvalid.replace hes) h

end IgnoreRules
