/-
# Accepted configurations

What the checks of the schema accept, and what an accepted configuration holds.  A mapping that is
accepted and laid over an accepted one gives an accepted one again.

* `Schema.checkLogging_eq_ok_iff` and its like say what a check accepts;
* `Schema.checkLevel_of_walk` and its like say what stands at the paths of a configuration;
* `Schema.check_merge` : configurations that are accepted are accepted when they are merged.
-/
import IgnoreRules.Proofs.MergedMappings
import IgnoreRules.Settings.Schema

namespace IgnoreRules

/-- Two steps, one after the other, succeed exactly if both do. -/
theorem bind_eq_ok_iff {ε α β : Type} {x : Except ε α} {f : α → Except ε β} {b : β} :
    x >>= f = .ok b ↔ ∃ a, x = .ok a ∧ f a = .ok b := by
  cases x with
  | error e =>
    constructor
    · intro h
      cases h
    · rintro ⟨a, ha, -⟩
      cases ha
  | ok a =>
    constructor
    · intro h
      exact ⟨a, rfl, h⟩
    · rintro ⟨b, hb, h⟩
      cases hb
      exact h

/-- A step that does not fail gives a result. -/
theorem exists_eq_ok_of_isOk {ε α : Type} {x : Except ε α} (h : x.isOk = true) :
    ∃ a, x = .ok a := by
  cases x with
  | error e => cases h
  | ok a => exact ⟨a, rfl⟩

/-- Nothing but null is null. -/
theorem Value.isNull_eq_false {v : Value} (h : v ≠ .null) : v.isNull = false := by
  cases v with
  | mapping es => rfl
  | list items => rfl
  | scalar x =>
    cases x with
    | null => exact absurd rfl h
    | _ => rfl

namespace Schema

variable {v : Value} {es : Entries}

/-! ## What the checks accept -/

/-- Only a mapping has entries. -/
theorem entriesOf_eq_ok_iff {part : Part} : entriesOf part v = .ok es ↔ v = .mapping es := by
  cases v with
  | mapping fs => simp [entriesOf]
  | scalar s => simp [entriesOf]
  | list items => simp [entriesOf]

/-- A field passes the check if it is not there or its value passes. -/
theorem checkAt_eq_ok_iff {key : String} {check : Value → Except Refusal Unit} :
    checkAt key check es = .ok () ↔ ∀ v, es.get? (.text key) = some v → check v = .ok () := by
  rw [checkAt]
  cases es.get? (.text key) with
  | none => simp
  | some w => simp

/-- A level is the name of a severity. -/
theorem checkLevel_eq_ok_iff :
    checkLevel v = .ok () ↔ ∃ name severity,
      v = .text name ∧ Log.Severity.ofName? name = some severity := by
  constructor
  · intro h
    unfold checkLevel at h
    split at h
    · next name =>
      split at h
      · next hs =>
        obtain ⟨severity, hname⟩ := Option.isSome_iff_exists.1 hs
        exact ⟨name, severity, rfl, hname⟩
      · cases h
    · cases h
  · rintro ⟨name, severity, rfl, hname⟩
    rw [checkLevel, if_pos (by rw [hname]; rfl)]

/-- A file is null or a text that is not empty. -/
theorem checkFile_eq_ok_iff :
    checkFile v = .ok () ↔ v = .null ∨ ∃ name, v = .text name ∧ name ≠ "" := by
  constructor
  · intro h
    unfold checkFile at h
    split at h
    · exact Or.inl rfl
    · next name =>
      split at h
      · cases h
      · next hne =>
        refine Or.inr ⟨name, rfl, ?_⟩
        rintro rfl
        exact hne rfl
    · cases h
  · rintro (rfl | ⟨name, rfl, hne⟩)
    · rfl
    · rw [checkFile, if_neg (by simpa using hne)]

/-- The cache is switched by a truth value. -/
theorem checkEnabled_eq_ok_iff : checkEnabled v = .ok () ↔ ∃ b, v = .bool b := by
  constructor
  · intro h
    unfold checkEnabled at h
    split at h
    · next b => exact ⟨b, rfl⟩
    · cases h
  · rintro ⟨b, rfl⟩
    rfl

/-- The size of the cache is a positive integer. -/
theorem checkMaxEntries_eq_ok_iff :
    checkMaxEntries v = .ok () ↔ ∃ n : Nat, 0 < n ∧ v = .int n := by
  constructor
  · intro h
    unfold checkMaxEntries at h
    split at h
    · next m =>
      split at h
      · cases h
      · next hm =>
        refine ⟨m.toNat, by omega, ?_⟩
        rw [Int.toNat_of_nonneg (by omega)]
    · cases h
  · rintro ⟨n, hn, rfl⟩
    rw [checkMaxEntries, if_neg (by omega)]

/-- The keys of a part are those that it may hold. -/
theorem checkKeys_eq_ok_iff {part : Part} {allowed : List String} :
    checkKeys part allowed es = .ok () ↔
      ∀ k ∈ es.map Prod.fst, ∃ a ∈ allowed, k = .text a := by
  have hknown : checkKeys part allowed es = .ok () ↔ unknownKeys allowed es = [] := by
    rw [checkKeys]
    split
    · next h => simp [h]
    · next h =>
      constructor
      · intro hok
        split at hok <;> cases hok
      · intro hnil
        exact absurd hnil h
  rw [hknown, unknownKeys, List.filter_eq_nil_iff]
  simp only [Bool.not_eq_true', Bool.not_eq_false, List.any_eq_true, Scalar.same_text_iff]

/-- The check that all sections share: a mapping with known keys, two of which have checks of their
own. -/
def checkFields (part : Part) (keys : List String) (k : String) (f : Value → Except Refusal Unit)
    (l : String) (g : Value → Except Refusal Unit) (v : Value) : Except Refusal Unit := do
  let es ← entriesOf part v
  checkKeys part keys es
  checkAt k f es
  checkAt l g es

/-- A section passes the check if its keys are allowed and both of its fields pass. -/
theorem checkFields_eq_ok_iff {part : Part} {keys : List String} {k l : String}
    {f g : Value → Except Refusal Unit} :
    checkFields part keys k f l g v = .ok () ↔
      ∃ es, v = .mapping es ∧ checkKeys part keys es = .ok () ∧ checkAt k f es = .ok () ∧
        checkAt l g es = .ok () := by
  simp only [checkFields, bind_eq_ok_iff, entriesOf_eq_ok_iff]
  constructor
  · rintro ⟨es, hes, ⟨⟩, hkeys, ⟨⟩, hk, hl⟩
    exact ⟨es, hes, hkeys, hk, hl⟩
  · rintro ⟨es, hes, hkeys, hk, hl⟩
    exact ⟨es, hes, (), hkeys, (), hk, hl⟩

theorem checkLogging_eq_checkFields : checkLogging
    = checkFields .logging [Key.level, Key.file] Key.level checkLevel Key.file checkFile := rfl

theorem checkCache_eq_checkFields : checkCache
    = checkFields .cache [Key.enabled, Key.maxEntries] Key.enabled checkEnabled Key.maxEntries
      checkMaxEntries := rfl

/-- What stands under the root key is a section of sections, unless it is null. -/
theorem checkRoot_eq_checkFields (h : v ≠ .null) : checkRoot v
    = checkFields .root [Key.logging, Key.cache] Key.logging checkLogging Key.cache checkCache
      v := by
  rw [checkRoot, Value.isNull_eq_false h]
  rfl

theorem checkLogging_eq_ok_iff :
    checkLogging v = .ok () ↔ ∃ es, v = .mapping es ∧
      checkKeys .logging [Key.level, Key.file] es = .ok () ∧
      checkAt Key.level checkLevel es = .ok () ∧ checkAt Key.file checkFile es = .ok () := by
  rw [checkLogging_eq_checkFields, checkFields_eq_ok_iff]

theorem checkCache_eq_ok_iff :
    checkCache v = .ok () ↔ ∃ es, v = .mapping es ∧
      checkKeys .cache [Key.enabled, Key.maxEntries] es = .ok () ∧
      checkAt Key.enabled checkEnabled es = .ok () ∧
      checkAt Key.maxEntries checkMaxEntries es = .ok () := by
  rw [checkCache_eq_checkFields, checkFields_eq_ok_iff]

/-- Under the root key stands null or a section of sections. -/
theorem checkRoot_eq_ok_iff :
    checkRoot v = .ok () ↔ v = .null ∨ ∃ es, v = .mapping es ∧
      checkKeys .root [Key.logging, Key.cache] es = .ok () ∧
      checkAt Key.logging checkLogging es = .ok () ∧ checkAt Key.cache checkCache es = .ok () := by
  by_cases hnull : v = .null
  · rw [hnull]
    exact iff_of_true rfl (Or.inl rfl)
  · rw [checkRoot_eq_checkFields hnull, checkFields_eq_ok_iff]
    exact (or_iff_right hnull).symm

/-- A document passes the check if it is a mapping whose root passes. -/
theorem check_eq_ok_iff :
    check v = .ok () ↔ ∃ es, v = .mapping es ∧ checkAt Key.root checkRoot es = .ok () := by
  rw [check, bind_eq_ok_iff]
  simp only [entriesOf_eq_ok_iff]

/-! ## What a configuration holds -/

/-- A path that leads somewhere leads through a value that passed its check. -/
theorem exists_checked_of_walk {key : String} {path : List String}
    {check : Value → Except Refusal Unit} (h : checkAt key check es = .ok ())
    (hw : (Value.mapping es).walk (key :: path) = some v) :
    ∃ w, check w = .ok () ∧ w.walk path = some v := by
  rw [Value.walk, Option.bind_eq_some_iff] at hw
  obtain ⟨w, hget, hw⟩ := hw
  exact ⟨w, checkAt_eq_ok_iff.1 h w hget, hw⟩

/-- A path through the root key leads through the sections. -/
theorem exists_sections_of_walk {key : String} {path : List String}
    (h : check (.mapping es) = .ok ())
    (hw : (Value.mapping es).walk (Key.root :: key :: path) = some v) :
    ∃ sections, checkAt Key.logging checkLogging sections = .ok () ∧
      checkAt Key.cache checkCache sections = .ok () ∧
      (Value.mapping sections).walk (key :: path) = some v := by
  obtain ⟨_, ⟨⟩, hroot⟩ := check_eq_ok_iff.1 h
  obtain ⟨w, hcheck, hw⟩ := exists_checked_of_walk hroot hw
  rcases checkRoot_eq_ok_iff.1 hcheck with rfl | ⟨sections, rfl, -, hlogging, hcache⟩
  · cases hw
  · exact ⟨sections, hlogging, hcache, hw⟩

/-- A path to a field of the section for logging leads to a value that passed its check. -/
theorem exists_logging_of_walk {field : String} (h : check (.mapping es) = .ok ())
    (hw : (Value.mapping es).walk [Key.root, Key.logging, field] = some v) :
    ∃ fields, checkAt Key.level checkLevel fields = .ok () ∧
      checkAt Key.file checkFile fields = .ok () ∧ Entries.get? (.text field) fields = some v := by
  obtain ⟨sections, hlogging, -, hw⟩ := exists_sections_of_walk h hw
  obtain ⟨w, hcheck, hw⟩ := exists_checked_of_walk hlogging hw
  obtain ⟨fields, rfl, -, hlevel, hfile⟩ := checkLogging_eq_ok_iff.1 hcheck
  rw [Value.walk_cons, Option.bind_eq_some_iff] at hw
  obtain ⟨w, hget, hw⟩ := hw
  cases hw
  exact ⟨fields, hlevel, hfile, hget⟩

/-- A path to a field of the section for the cache leads to a value that passed its check. -/
theorem exists_cache_of_walk {field : String} (h : check (.mapping es) = .ok ())
    (hw : (Value.mapping es).walk [Key.root, Key.cache, field] = some v) :
    ∃ fields, checkAt Key.enabled checkEnabled fields = .ok () ∧
      checkAt Key.maxEntries checkMaxEntries fields = .ok () ∧
      Entries.get? (.text field) fields = some v := by
  obtain ⟨sections, -, hcache, hw⟩ := exists_sections_of_walk h hw
  obtain ⟨w, hcheck, hw⟩ := exists_checked_of_walk hcache hw
  obtain ⟨fields, rfl, -, henabled, hmax⟩ := checkCache_eq_ok_iff.1 hcheck
  rw [Value.walk_cons, Option.bind_eq_some_iff] at hw
  obtain ⟨w, hget, hw⟩ := hw
  cases hw
  exact ⟨fields, henabled, hmax, hget⟩

/-- The level of a configuration is a level. -/
theorem checkLevel_of_walk (h : check (.mapping es) = .ok ())
    (hw : (Value.mapping es).walk [Key.root, Key.logging, Key.level] = some v) :
    checkLevel v = .ok () := by
  obtain ⟨fields, hlevel, -, hget⟩ := exists_logging_of_walk h hw
  exact checkAt_eq_ok_iff.1 hlevel v hget

/-- The log file of a configuration is a file. -/
theorem checkFile_of_walk (h : check (.mapping es) = .ok ())
    (hw : (Value.mapping es).walk [Key.root, Key.logging, Key.file] = some v) :
    checkFile v = .ok () := by
  obtain ⟨fields, -, hfile, hget⟩ := exists_logging_of_walk h hw
  exact checkAt_eq_ok_iff.1 hfile v hget

/-- The switch of the cache in a configuration is a switch. -/
theorem checkEnabled_of_walk (h : check (.mapping es) = .ok ())
    (hw : (Value.mapping es).walk [Key.root, Key.cache, Key.enabled] = some v) :
    checkEnabled v = .ok () := by
  obtain ⟨fields, henabled, -, hget⟩ := exists_cache_of_walk h hw
  exact checkAt_eq_ok_iff.1 henabled v hget

/-- The size of the cache in a configuration is a size. -/
theorem checkMaxEntries_of_walk (h : check (.mapping es) = .ok ())
    (hw : (Value.mapping es).walk [Key.root, Key.cache, Key.maxEntries] = some v) :
    checkMaxEntries v = .ok () := by
  obtain ⟨fields, -, hmax, hget⟩ := exists_cache_of_walk h hw
  exact checkAt_eq_ok_iff.1 hmax v hget

/-! ## Merged configurations -/

/-- A value that passes the check, laid over one that does or over nothing, passes it again. -/
def KeptByMerging (check : Value → Except Refusal Unit) : Prop :=
  ∀ (old : Option Value) (v : Value), (∀ o, old = some o → check o = .ok ()) → v.WellFormed →
    check v = .ok () → check (v.over old) = .ok ()

/-- A check that only scalars pass is kept by merging: the upper scalar wins. -/
theorem keptByMerging_of_scalar {check : Value → Except Refusal Unit}
    (h : ∀ v, check v = .ok () → ∃ s, v = .scalar s) : KeptByMerging check := by
  intro old v _ _ hv
  obtain ⟨s, rfl⟩ := h v hv
  exact hv

theorem keptByMerging_checkLevel : KeptByMerging checkLevel := by
  apply keptByMerging_of_scalar
  intro v hv
  obtain ⟨name, -, rfl, -⟩ := checkLevel_eq_ok_iff.1 hv
  exact ⟨_, rfl⟩

theorem keptByMerging_checkFile : KeptByMerging checkFile := by
  apply keptByMerging_of_scalar
  intro v hv
  rcases checkFile_eq_ok_iff.1 hv with rfl | ⟨name, rfl, -⟩
  · exact ⟨_, rfl⟩
  · exact ⟨_, rfl⟩

theorem keptByMerging_checkEnabled : KeptByMerging checkEnabled := by
  apply keptByMerging_of_scalar
  intro v hv
  obtain ⟨b, rfl⟩ := checkEnabled_eq_ok_iff.1 hv
  exact ⟨_, rfl⟩

theorem keptByMerging_checkMaxEntries : KeptByMerging checkMaxEntries := by
  apply keptByMerging_of_scalar
  intro v hv
  obtain ⟨n, -, rfl⟩ := checkMaxEntries_eq_ok_iff.1 hv
  exact ⟨_, rfl⟩

/-- Merging brings no unknown keys. -/
theorem checkKeys_merge {part : Part} {allowed : List String} {bs : Entries}
    (hb : checkKeys part allowed bs = .ok ()) (he : checkKeys part allowed es = .ok ()) :
    checkKeys part allowed (bs.merge es) = .ok () := by
  rw [checkKeys_eq_ok_iff] at hb he ⊢
  intro k hk
  rcases Entries.mem_map_fst_merge hk with hk | hk
  · exact hb k hk
  · exact he k hk

/-- A field whose check is kept by merging passes it in the merged mapping. -/
theorem checkAt_merge {key : String} {check : Value → Except Refusal Unit} {bs : Entries}
    (hkept : KeptByMerging check) (hwell : es.WellFormed) (hb : checkAt key check bs = .ok ())
    (he : checkAt key check es = .ok ()) : checkAt key check (bs.merge es) = .ok () := by
  rw [checkAt_eq_ok_iff] at hb he ⊢
  intro v hv
  rw [Entries.get?_merge hwell] at hv
  cases hget : es.get? (.text key) with
  | none =>
    rw [hget] at hv
    exact hb v hv
  | some w =>
    rw [hget] at hv
    cases hv
    exact hkept _ w hb (hwell.get? hget) (he w hget)

/-- A section whose fields are kept by merging is kept by merging. -/
theorem keptByMerging_checkFields {part : Part} {keys : List String} {k l : String}
    {f g : Value → Except Refusal Unit} (hf : KeptByMerging f) (hg : KeptByMerging g) :
    KeptByMerging (checkFields part keys k f l g) := by
  intro old v hold hwell hv
  rcases Value.over_cases old v with hover | ⟨bs, es, hmapping, rfl, hover⟩
  · rw [hover]
    exact hv
  · -- both are mappings, and so their fields are merged one by one
    obtain ⟨_, ⟨⟩, hbkeys, hbk, hbl⟩ := checkFields_eq_ok_iff.1 (hold _ hmapping)
    obtain ⟨_, ⟨⟩, hkeys, hk, hl⟩ := checkFields_eq_ok_iff.1 hv
    rw [hover]
    exact checkFields_eq_ok_iff.2 ⟨_, rfl, checkKeys_merge hbkeys hkeys,
      checkAt_merge hf hwell hbk hk, checkAt_merge hg hwell hbl hl⟩

theorem keptByMerging_checkLogging : KeptByMerging checkLogging :=
  keptByMerging_checkFields keptByMerging_checkLevel keptByMerging_checkFile

theorem keptByMerging_checkCache : KeptByMerging checkCache :=
  keptByMerging_checkFields keptByMerging_checkEnabled keptByMerging_checkMaxEntries

/-- What stands under the root key is kept by merging, be it null or a section of sections. -/
theorem keptByMerging_checkRoot : KeptByMerging checkRoot := by
  intro old v hold hwell hv
  rcases Value.over_cases old v with hover | ⟨bs, es, hmapping, rfl, hover⟩
  · rw [hover]
    exact hv
  · -- neither is null, and so both are checked like sections
    have hlower := hold _ hmapping
    rw [checkRoot_eq_checkFields (by simp)] at hlower hv
    rw [hover, checkRoot_eq_checkFields (by simp)]
    apply keptByMerging_checkFields keptByMerging_checkLogging keptByMerging_checkCache
      (some (.mapping bs)) (.mapping es) _ hwell hv
    rintro o ⟨⟩
    exact hlower

/-- **Configurations that are accepted are accepted when they are merged.** -/
theorem check_merge {lower upper : Entries} (hwell : upper.WellFormed)
    (hl : check (.mapping lower) = .ok ()) (hu : check (.mapping upper) = .ok ()) :
    check (.mapping (lower.merge upper)) = .ok () := by
  obtain ⟨_, ⟨⟩, hlroot⟩ := check_eq_ok_iff.1 hl
  obtain ⟨_, ⟨⟩, huroot⟩ := check_eq_ok_iff.1 hu
  exact check_eq_ok_iff.2 ⟨_, rfl, checkAt_merge keptByMerging_checkRoot hwell hlroot huroot⟩

end Schema

end IgnoreRules
