/-
# Accepted and refused values

The schema of configurations is said a second time, as what a value has to be, and every value is
found to be in one of three cases.  It is what the schema says, and is accepted; or the check comes
to a section with a key that is no text, and stops because it cannot list the keys; or a fault is
found.  The fault can be put into words unless the value holds an integer with too many digits.

* `Schema.IsConfiguration` : what the schema says;
* `Schema.Unlistable` : the check comes to a key that is no text;
* `Schema.check_eq_ok_iff_isConfiguration`, `Schema.check_eq_keys_iff` : these are the cases;
* `Schema.isWordable_of_check` : faults of values that can be shown can be put into words;
* `check_follows_schema` : what becomes of every value, checked by itself or loaded as a layer.
-/
import IgnoreRules.Proofs.ValidSettings

namespace IgnoreRules

/-- Two steps, one after the other, fail exactly if the first one does or the second one does. -/
theorem bind_eq_error_iff {ε α β : Type} {x : Except ε α} {f : α → Except ε β} {e : ε} :
    x >>= f = .error e ↔ x = .error e ∨ ∃ a, x = .ok a ∧ f a = .error e := by
  cases x with
  | error d =>
    constructor
    · intro h
      cases h
      exact Or.inl rfl
    · rintro (h | ⟨a, ha, -⟩)
      · cases h
        rfl
      · cases ha
  | ok a =>
    constructor
    · intro h
      exact Or.inr ⟨a, rfl, h⟩
    · rintro (h | ⟨b, hb, h⟩)
      · cases h
      · cases hb
        exact h

/-- A name is that of a severity if it is so in capitals. -/
theorem Log.Severity.ofName?_eq_some_iff {name : String} {severity : Log.Severity} :
    ofName? name = some severity ↔ String.ofList (Text.upper name.toList) = severity.name := by
  unfold ofName?
  constructor
  · intro h
    have hname := List.find?_some h
    exact (of_decide_eq_true hname).symm
  · intro h
    dsimp only
    rw [h]
    cases severity <;> rfl

namespace Schema

variable {v : Value} {es : Entries} {part : Part} {allowed : List String}

/-! ## What the schema says -/

/-- A mapping with no other keys than those of the fields, and with what there should be under each
of these that it has. -/
def IsSection (fields : List (String × (Value → Prop))) (v : Value) : Prop :=
  ∃ es : Entries, v = .mapping es ∧
    (∀ k ∈ es.map Prod.fst, ∃ name ∈ fields.map Prod.fst, k = .text name) ∧
    ∀ field ∈ fields, ∀ w, es.get? (.text field.1) = some w → field.2 w

/-- A text that is the name of a severity when it is written in capitals. -/
def IsLevel (v : Value) : Prop :=
  ∃ (name : String) (severity : Log.Severity),
    v = .text name ∧ String.ofList (Text.upper name.toList) = severity.name

/-- Null, or a text that is not empty. -/
def IsFile (v : Value) : Prop := v = .null ∨ ∃ name, v = .text name ∧ name ≠ ""

/-- A truth value. -/
def IsSwitch (v : Value) : Prop := ∃ b, v = .bool b

/-- A positive integer, and no truth value. -/
def IsSize (v : Value) : Prop := ∃ n : Int, 0 < n ∧ v = .int n

/-- The section for logging. -/
def IsLogging (v : Value) : Prop := IsSection [(Key.level, IsLevel), (Key.file, IsFile)] v

/-- The section for the cache. -/
def IsCache (v : Value) : Prop := IsSection [(Key.enabled, IsSwitch), (Key.maxEntries, IsSize)] v

/-- Null, or the section of the two sections. -/
def IsRoot (v : Value) : Prop :=
  v = .null ∨ IsSection [(Key.logging, IsLogging), (Key.cache, IsCache)] v

/-- A mapping, with anything under other keys than the root key. -/
def IsConfiguration (v : Value) : Prop :=
  ∃ es : Entries, v = .mapping es ∧ ∀ w, es.get? (.text Key.root) = some w → IsRoot w

/-! ## What is accepted -/

/-- What is checked of a level. -/
theorem checkLevel_iff_isLevel : checkLevel v = .ok () ↔ IsLevel v := by
  rw [checkLevel_eq_ok_iff]
  unfold IsLevel
  simp only [Log.Severity.ofName?_eq_some_iff]

theorem checkMaxEntries_iff_isSize : checkMaxEntries v = .ok () ↔ IsSize v := by
  rw [checkMaxEntries_eq_ok_iff]
  constructor
  · rintro ⟨n, hn, rfl⟩
    exact ⟨n, by omega, rfl⟩
  · rintro ⟨n, hn, rfl⟩
    refine ⟨n.toNat, by omega, ?_⟩
    rw [Int.toNat_of_nonneg (by omega)]

/-- **Sections are accepted** if their fields are what they should be. -/
theorem checkFields_iff_isSection {k l : String} {f g : Value → Except Refusal Unit}
    {F G : Value → Prop} (hf : ∀ w, f w = .ok () ↔ F w) (hg : ∀ w, g w = .ok () ↔ G w) :
    checkFields part [k, l] k f l g v = .ok () ↔ IsSection [(k, F), (l, G)] v := by
  rw [checkFields_eq_ok_iff]
  unfold IsSection
  simp only [checkKeys_eq_ok_iff, checkAt_eq_ok_iff, hf, hg, List.map_cons, List.map_nil,
    List.forall_mem_cons, List.not_mem_nil, false_implies, implies_true, and_true]

theorem checkLogging_iff_isLogging : checkLogging v = .ok () ↔ IsLogging v := by
  rw [checkLogging_eq_checkFields]
  exact checkFields_iff_isSection (fun _ => checkLevel_iff_isLevel) fun _ => checkFile_eq_ok_iff

theorem checkCache_iff_isCache : checkCache v = .ok () ↔ IsCache v := by
  rw [checkCache_eq_checkFields]
  exact checkFields_iff_isSection (fun _ => checkEnabled_eq_ok_iff)
    fun _ => checkMaxEntries_iff_isSize

theorem checkRoot_iff_isRoot : checkRoot v = .ok () ↔ IsRoot v := by
  by_cases hnull : v = .null
  · rw [hnull]
    exact iff_of_true rfl (Or.inl rfl)
  · rw [checkRoot_eq_checkFields hnull, checkFields_iff_isSection
      (fun _ => checkLogging_iff_isLogging) fun _ => checkCache_iff_isCache]
    exact (or_iff_right hnull).symm

/-- **What the schema says is accepted, and nothing else.** -/
theorem check_eq_ok_iff_isConfiguration : check v = .ok () ↔ IsConfiguration v := by
  rw [check_eq_ok_iff]
  unfold IsConfiguration
  simp only [checkAt_eq_ok_iff, checkRoot_iff_isRoot]

/-! ## Keys that cannot be listed -/

/-- Some key is no text. -/
def HasStrangeKey (es : Entries) : Prop := ∃ k ∈ es.map Prod.fst, ∀ name, k ≠ .text name

/-- Texts can be put in order. -/
theorem firstUnordered?_of_texts {keys : List Scalar} (h : ∀ k ∈ keys, ∃ name, k = .text name) :
    firstUnordered? keys = none := by
  induction keys with
  | nil => rfl
  | cons k keys ih =>
    cases keys with
    | nil => rfl
    | cons l keys =>
      have hrest := ih fun m hm => h m (List.mem_cons_of_mem k hm)
      obtain ⟨a, rfl⟩ := h k List.mem_cons_self
      obtain ⟨b, rfl⟩ := h l (List.mem_cons_of_mem _ List.mem_cons_self)
      unfold firstUnordered?
      exact hrest

/-- Keys can be listed exactly if all of them are texts. -/
theorem exists_texts_iff {keys : List Scalar} (i : Nat) :
    (∃ names, texts i keys = .ok names) ↔ ∀ k ∈ keys, ∃ name, k = .text name := by
  induction keys generalizing i with
  | nil => simp [texts]
  | cons k keys ih =>
    rw [List.forall_mem_cons, ← ih (i + 1)]
    cases k with
    | text name => cases htexts : texts (i + 1) keys <;> simp [texts, htexts, Except.map]
    | _ => simp [texts]

/-- **Keys can be listed in their order exactly if all of them are texts.** -/
theorem exists_sortedNames_iff {keys : List Scalar} :
    (∃ names, sortedNames keys = .ok names) ↔ ∀ k ∈ keys, ∃ name, k = .text name := by
  unfold sortedNames
  constructor
  · rintro ⟨names, h⟩
    split at h
    · cases h
    · -- the sorted keys are the same keys
      have hsorted := (exists_texts_iff 0).1 ⟨names, h⟩
      intro k hk
      exact hsorted k (List.mem_mergeSort.2 hk)
  · intro h
    rw [firstUnordered?_of_texts h]
    exact (exists_texts_iff 0).2 fun k hk => h k (List.mem_mergeSort.1 hk)

/-- A key that is no text is always unknown. -/
theorem hasStrangeKey_iff (allowed : List String) :
    HasStrangeKey es ↔ ∃ k ∈ unknownKeys allowed es, ∀ name, k ≠ .text name := by
  constructor
  · rintro ⟨k, hk, hstrange⟩
    refine ⟨k, ?_, hstrange⟩
    have hnone : (allowed.any fun a => k.same (.text a)) = false := by
      rw [List.any_eq_false]
      intro a _ hsame
      exact hstrange a (Scalar.same_text_iff.1 hsame)
    exact List.mem_filter.2 ⟨hk, by rw [hnone]; rfl⟩
  · rintro ⟨k, hk, hstrange⟩
    exact ⟨k, (List.mem_filter.1 hk).1, hstrange⟩

/-- **All that can become of a check of keys that fails.** -/
theorem checkKeys_eq_error {r : Refusal} (h : checkKeys part allowed es = .error r) :
    (∃ names, r = .fault (.unknownKeys part names)) ∧ ¬HasStrangeKey es ∨
      (∃ f, r = .keys f) ∧ HasStrangeKey es := by
  rw [hasStrangeKey_iff allowed]
  unfold checkKeys at h
  split at h
  · cases h
  · split at h
    · next f hsorted =>
      cases h
      refine Or.inr ⟨⟨f, rfl⟩, ?_⟩
      -- keys that are all texts could be listed
      have hnone : ¬∀ k ∈ unknownKeys allowed es, ∃ name, k = .text name := by
        intro htexts
        obtain ⟨names, hnames⟩ := exists_sortedNames_iff.2 htexts
        rw [hsorted] at hnames
        cases hnames
      simp only [Classical.not_forall, not_exists, exists_prop] at hnone
      exact hnone
    · next names hsorted =>
      cases h
      refine Or.inl ⟨⟨names, rfl⟩, ?_⟩
      rintro ⟨k, hk, hstrange⟩
      obtain ⟨name, hname⟩ := exists_sortedNames_iff.1 ⟨names, hsorted⟩ k hk
      exact hstrange name hname

/-- A mapping with allowed keys has no strange ones. -/
theorem not_hasStrangeKey (h : checkKeys part allowed es = .ok ()) : ¬HasStrangeKey es := by
  rintro ⟨k, hk, hstrange⟩
  obtain ⟨a, -, hka⟩ := checkKeys_eq_ok_iff.1 h k hk
  exact hstrange a hka

/-- Unknown keys cannot be listed exactly if a strange one is among them. -/
theorem checkKeys_eq_keys_iff :
    (∃ f, checkKeys part allowed es = .error (.keys f)) ↔ HasStrangeKey es := by
  constructor
  · rintro ⟨f, h⟩
    rcases checkKeys_eq_error h with ⟨⟨names, hr⟩, -⟩ | ⟨-, hstrange⟩
    · cases hr
    · exact hstrange
  · intro hstrange
    cases h : checkKeys part allowed es with
    | ok a => exact absurd hstrange (not_hasStrangeKey h)
    | error r =>
      rcases checkKeys_eq_error h with ⟨-, hnone⟩ | ⟨⟨f, rfl⟩, -⟩
      · exact absurd hstrange hnone
      · exact ⟨f, rfl⟩

/-! ## What is refused -/

/-- What is refused as a mapping is none. -/
theorem entriesOf_eq_error {r : Refusal} (h : entriesOf part v = .error r) :
    r = .fault (.notMapping part) := by
  unfold entriesOf at h
  split at h
  · cases h
  · cases h
    rfl

/-- A field is refused exactly if it is there and its value is. -/
theorem checkAt_eq_error_iff {key : String} {check : Value → Except Refusal Unit} {r : Refusal} :
    checkAt key check es = .error r ↔ ∃ w, es.get? (.text key) = some w ∧ check w = .error r := by
  unfold checkAt
  cases es.get? (.text key) <;> simp

/-- **All that can become of a section that is refused**: it is no mapping, or its keys are refused,
or its first field is, or its second field is while the first one is accepted. -/
theorem checkFields_eq_error_iff {keys : List String} {k l : String}
    {f g : Value → Except Refusal Unit} {r : Refusal} :
    checkFields part keys k f l g v = .error r ↔ entriesOf part v = .error r ∨
      ∃ es, v = .mapping es ∧ (checkKeys part keys es = .error r ∨
        checkKeys part keys es = .ok () ∧ (checkAt k f es = .error r ∨
          checkAt k f es = .ok () ∧ checkAt l g es = .error r)) := by
  unfold checkFields
  simp only [bind_eq_error_iff, entriesOf_eq_ok_iff]
  constructor
  · rintro (h | ⟨es, hes, h | ⟨⟨⟩, hkeys, h | ⟨⟨⟩, hf, h⟩⟩⟩)
    · exact Or.inl h
    · exact Or.inr ⟨es, hes, Or.inl h⟩
    · exact Or.inr ⟨es, hes, Or.inr ⟨hkeys, Or.inl h⟩⟩
    · exact Or.inr ⟨es, hes, Or.inr ⟨hkeys, Or.inr ⟨hf, h⟩⟩⟩
  · rintro (h | ⟨es, hes, h | ⟨hkeys, h | ⟨hf, h⟩⟩⟩)
    · exact Or.inl h
    · exact Or.inr ⟨es, hes, Or.inl h⟩
    · exact Or.inr ⟨es, hes, Or.inr ⟨(), hkeys, Or.inl h⟩⟩
    · exact Or.inr ⟨es, hes, Or.inr ⟨(), hkeys, Or.inr ⟨(), hf, h⟩⟩⟩

/-- A check of a field finds a fault in what it refuses, and shows just that. -/
def ShowsRefused (check : Value → Except Refusal Unit) : Prop :=
  ∀ v r, check v = .error r → ∃ f, r = .fault f ∧ f.value? = some v

theorem showsRefused_checkLevel : ShowsRefused checkLevel := by
  intro v r h
  unfold checkLevel at h
  split at h
  · split at h
    · cases h
    · cases h
      exact ⟨_, rfl, rfl⟩
  · cases h
    exact ⟨_, rfl, rfl⟩

theorem showsRefused_checkFile : ShowsRefused checkFile := by
  intro v r h
  unfold checkFile at h
  split at h
  · cases h
  · split at h
    · cases h
      exact ⟨_, rfl, rfl⟩
    · cases h
  · cases h
    exact ⟨_, rfl, rfl⟩

theorem showsRefused_checkEnabled : ShowsRefused checkEnabled := by
  intro v r h
  unfold checkEnabled at h
  split at h
  · cases h
  · cases h
    exact ⟨_, rfl, rfl⟩

theorem showsRefused_checkMaxEntries : ShowsRefused checkMaxEntries := by
  intro v r h
  unfold checkMaxEntries at h
  split at h
  · split at h
    · cases h
      exact ⟨_, rfl, rfl⟩
    · cases h
  · cases h
    exact ⟨_, rfl, rfl⟩

/-! ## Sections that cannot be listed -/

/-- The check stops because it cannot list the keys of some section. -/
def CannotList (result : Except Refusal Unit) : Prop := ∃ f, result = .error (.keys f)

/-- A check that shows what it refuses has no keys to list. -/
theorem ShowsRefused.canList {check : Value → Except Refusal Unit} (h : ShowsRefused check)
    (v : Value) : ¬CannotList (check v) := by
  rintro ⟨f, hf⟩
  obtain ⟨g, hg, -⟩ := h v _ hf
  cases hg

/-- Why the unknown keys of a section cannot be listed: they are strange themselves, or those below
the first field are, or those below the second one, if the first is all right. -/
theorem checkFields_cannotList_iff {keys : List String} {k l : String}
    {f g : Value → Except Refusal Unit} :
    CannotList (checkFields part keys k f l g v) ↔ ∃ es : Entries, v = .mapping es ∧
      (HasStrangeKey es ∨ checkKeys part keys es = .ok () ∧
        ((∃ w, es.get? (.text k) = some w ∧ CannotList (f w)) ∨
          checkAt k f es = .ok () ∧ ∃ w, es.get? (.text l) = some w ∧ CannotList (g w))) := by
  unfold CannotList
  simp only [checkFields_eq_error_iff, checkAt_eq_error_iff]
  constructor
  · rintro ⟨c, h | ⟨es, hes, h | ⟨hkeys, ⟨w, hw, h⟩ | ⟨hf, w, hw, h⟩⟩⟩⟩
    · cases entriesOf_eq_error h
    · exact ⟨es, hes, Or.inl (checkKeys_eq_keys_iff.1 ⟨c, h⟩)⟩
    · exact ⟨es, hes, Or.inr ⟨hkeys, Or.inl ⟨w, hw, c, h⟩⟩⟩
    · exact ⟨es, hes, Or.inr ⟨hkeys, Or.inr ⟨hf, w, hw, c, h⟩⟩⟩
  · rintro ⟨es, hes, h | ⟨hkeys, ⟨w, hw, c, h⟩ | ⟨hf, w, hw, c, h⟩⟩⟩
    · obtain ⟨c, hc⟩ := checkKeys_eq_keys_iff.2 h
      exact ⟨c, Or.inr ⟨es, hes, Or.inl hc⟩⟩
    · exact ⟨c, Or.inr ⟨es, hes, Or.inr ⟨hkeys, Or.inl ⟨w, hw, h⟩⟩⟩⟩
    · exact ⟨c, Or.inr ⟨es, hes, Or.inr ⟨hkeys, Or.inr ⟨hf, w, hw, h⟩⟩⟩⟩

/-- The value is a mapping with a key that is no text. -/
def IsStrange (v : Value) : Prop := ∃ es : Entries, v = .mapping es ∧ HasStrangeKey es

/-- In a section of plain fields only its own keys can be strange. -/
theorem checkFields_cannotList_iff_isStrange {keys : List String} {k l : String}
    {f g : Value → Except Refusal Unit} (hf : ShowsRefused f) (hg : ShowsRefused g) :
    CannotList (checkFields part keys k f l g v) ↔ IsStrange v := by
  rw [checkFields_cannotList_iff]
  constructor
  · rintro ⟨es, hes, h | ⟨-, ⟨w, -, h⟩ | ⟨-, w, -, h⟩⟩⟩
    · exact ⟨es, hes, h⟩
    · exact absurd h (hf.canList w)
    · exact absurd h (hg.canList w)
  · rintro ⟨es, hes, h⟩
    exact ⟨es, hes, Or.inl h⟩

/-- Only the keys of the section itself can be strange. -/
theorem checkLogging_cannotList_iff : CannotList (checkLogging v) ↔ IsStrange v := by
  rw [checkLogging_eq_checkFields]
  exact checkFields_cannotList_iff_isStrange showsRefused_checkLevel showsRefused_checkFile

theorem checkCache_cannotList_iff : CannotList (checkCache v) ↔ IsStrange v := by
  rw [checkCache_eq_checkFields]
  exact checkFields_cannotList_iff_isStrange showsRefused_checkEnabled showsRefused_checkMaxEntries

/-- The check of the mapping under the root key comes to a key that is no text: one of its own, or,
if these are known, one of the section for logging, or, if that is missing or accepted, one of the
section for the cache. -/
def HidesStrangeKey (root : Entries) : Prop :=
  HasStrangeKey root ∨
    (∀ k ∈ root.map Prod.fst, k = .text Key.logging ∨ k = .text Key.cache) ∧
      ((∃ w, root.get? (.text Key.logging) = some w ∧ IsStrange w) ∨
        (∀ w, root.get? (.text Key.logging) = some w → IsLogging w) ∧
          ∃ w, root.get? (.text Key.cache) = some w ∧ IsStrange w)

/-- The value is a mapping whose check comes to a key that is no text. -/
def Unlistable (v : Value) : Prop :=
  ∃ es root : Entries, v = .mapping es ∧ es.get? (.text Key.root) = some (.mapping root) ∧
    HidesStrangeKey root

/-- The root has strange keys, or one of its sections hides some. -/
theorem checkRoot_cannotList_iff :
    CannotList (checkRoot v) ↔ ∃ root : Entries, v = .mapping root ∧ HidesStrangeKey root := by
  by_cases hnull : v = .null
  · subst hnull
    refine iff_of_false ?_ ?_
    · rintro ⟨f, hf⟩
      cases hf
    · rintro ⟨root, hroot, -⟩
      cases hroot
  · rw [checkRoot_eq_checkFields hnull, checkFields_cannotList_iff]
    simp only [HidesStrangeKey, checkLogging_cannotList_iff, checkCache_cannotList_iff,
      checkKeys_eq_ok_iff, checkAt_eq_ok_iff, checkLogging_iff_isLogging, List.mem_cons,
      List.not_mem_nil, or_false, exists_eq_or_imp, exists_eq_left]

/-- **Keys cannot be listed exactly if the check comes to one that is no text.** -/
theorem check_eq_keys_iff : (∃ f, check v = .error (.keys f)) ↔ Unlistable v := by
  unfold check Unlistable
  simp only [bind_eq_error_iff, entriesOf_eq_ok_iff, checkAt_eq_error_iff]
  constructor
  · rintro ⟨f, h | ⟨es, hes, w, hw, h⟩⟩
    · cases entriesOf_eq_error h
    · obtain ⟨root, rfl, hhidden⟩ := checkRoot_cannotList_iff.1 ⟨f, h⟩
      exact ⟨es, root, hes, hw, hhidden⟩
  · rintro ⟨es, root, hes, hw, hhidden⟩
    obtain ⟨f, hf⟩ := checkRoot_cannotList_iff.2 ⟨root, rfl, hhidden⟩
    exact ⟨f, Or.inr ⟨es, hes, _, hw, hf⟩⟩

/-! ## Faults in words -/

/-- Faults that the check finds in values that can be shown can be put into words. -/
def FindsWordable (check : Value → Except Refusal Unit) : Prop :=
  ∀ v f, check v = .error (.fault f) → v.isShowable = true → f.isWordable = true

/-- What stands under a key of a mapping that can be shown can be shown. -/
theorem isShowable_of_get? {key : Scalar} (h : (Value.mapping es).isShowable = true)
    (hv : es.get? key = some v) : v.isShowable = true := by
  unfold Value.isShowable at h
  induction es with
  | nil => cases hv
  | cons e es ih =>
    obtain ⟨k, w⟩ := e
    unfold Value.showableEntries at h
    rw [Bool.and_eq_true, Bool.and_eq_true] at h
    obtain ⟨⟨-, hw⟩, hes⟩ := h
    rw [Entries.get?_cons] at hv
    split at hv
    · cases hv
      exact hw
    · exact ih hv hes

/-- A check that shows what it refuses finds what can be put in words. -/
theorem ShowsRefused.findsWordable {check : Value → Except Refusal Unit} (h : ShowsRefused check) :
    FindsWordable check := by
  intro v f hcheck hshow
  obtain ⟨g, hg, hvalue⟩ := h v _ hcheck
  cases hg
  unfold Fault.isWordable
  rw [hvalue]
  exact hshow

/-- In a section, faults can be put into words if those of its fields can. -/
theorem findsWordable_checkFields {keys : List String} {k l : String}
    {f g : Value → Except Refusal Unit} (hf : FindsWordable f) (hg : FindsWordable g) :
    FindsWordable (checkFields part keys k f l g) := by
  intro v fault h hshow
  rcases checkFields_eq_error_iff.1 h with h | ⟨es, rfl, h | ⟨-, h | ⟨-, h⟩⟩⟩
  · cases entriesOf_eq_error h
    rfl
  · -- the keys that are shown are texts
    rcases checkKeys_eq_error h with ⟨⟨names, hr⟩, -⟩ | ⟨⟨c, hr⟩, -⟩
    · cases hr
      rfl
    · cases hr
  · obtain ⟨w, hw, hfault⟩ := checkAt_eq_error_iff.1 h
    exact hf w fault hfault (isShowable_of_get? hshow hw)
  · obtain ⟨w, hw, hfault⟩ := checkAt_eq_error_iff.1 h
    exact hg w fault hfault (isShowable_of_get? hshow hw)

theorem findsWordable_checkLogging : FindsWordable checkLogging := by
  rw [checkLogging_eq_checkFields]
  exact findsWordable_checkFields showsRefused_checkLevel.findsWordable
    showsRefused_checkFile.findsWordable

theorem findsWordable_checkCache : FindsWordable checkCache := by
  rw [checkCache_eq_checkFields]
  exact findsWordable_checkFields showsRefused_checkEnabled.findsWordable
    showsRefused_checkMaxEntries.findsWordable

theorem findsWordable_checkRoot : FindsWordable checkRoot := by
  intro v f h hshow
  by_cases hnull : v = .null
  · subst hnull
    cases h
  · rw [checkRoot_eq_checkFields hnull] at h
    exact findsWordable_checkFields findsWordable_checkLogging findsWordable_checkCache v f h hshow

/-- **Faults of configurations that can be shown can be put into words.** -/
theorem isWordable_of_check {f : Fault} (h : check v = .error (.fault f))
    (hshow : v.isShowable = true) : f.isWordable = true := by
  unfold check at h
  rcases bind_eq_error_iff.1 h with h | ⟨es, hes, h⟩
  · cases entriesOf_eq_error h
    rfl
  · rw [entriesOf_eq_ok_iff] at hes
    subst hes
    obtain ⟨w, hw, hfault⟩ := checkAt_eq_error_iff.1 h
    exact findsWordable_checkRoot w f hfault (isShowable_of_get? hshow hw)

/-- A value that is no configuration, and whose keys can be listed, has a fault. -/
theorem exists_fault (h : ¬IsConfiguration v) (hlist : ¬Unlistable v) :
    ∃ f, check v = .error (.fault f) := by
  cases hcheck : check v with
  | ok a => exact absurd (check_eq_ok_iff_isConfiguration.1 hcheck) h
  | error r =>
    cases r with
    | fault f => exact ⟨f, rfl⟩
    | keys f => exact absurd (check_eq_keys_iff.1 ⟨f, hcheck⟩) hlist

end Schema

namespace Settings

variable {s : Settings} {v : Value} {source : Source} {origin : String}

/-! ## Loading refused values -/

/-- A document that is refused is refused by the check. -/
theorem entriesOf_eq_error {e : Failure} (h : entriesOf v origin = .error e) :
    (∃ f, Schema.check v = .error (.fault f) ∧ e = .invalid origin f) ∨
      ∃ f, Schema.check v = .error (.keys f) ∧ e = .keys f := by
  unfold entriesOf at h
  split at h
  · next f hcheck =>
    cases h
    exact Or.inl ⟨f, hcheck, rfl⟩
  · next f hcheck =>
    cases h
    exact Or.inr ⟨f, hcheck, rfl⟩
  · cases h
  · next hmapping hcheck =>
    -- only mappings are accepted
    obtain ⟨es, hes, -⟩ := Schema.check_eq_ok_iff.1 hcheck
    exact absurd hes (hmapping es)

/-- **All that can become of a document that is not loaded.** -/
theorem load_eq_error {e : Failure} (h : s.load v source origin = .error e) :
    (∃ f, Schema.check v = .error (.fault f) ∧ e = .invalid origin f) ∨
      ∃ f, Schema.check v = .error (.keys f) ∧ e = .keys f := by
  rw [load] at h
  split at h
  · next hentries =>
    cases h
    exact entriesOf_eq_error hentries
  · cases h

/-- A fault that can be put into words is reported as an error of the configuration. -/
theorem Failure.reported_of_isWordable {f : Schema.Fault} (h : f.isWordable = true) :
    (Failure.invalid origin f).name = "ConfigError" ∧
      (Failure.invalid origin f).code? = some 1 :=
  ⟨if_pos h, if_pos h⟩

end Settings

namespace Schema

/-- **Checks follow the schema.**  Accepted is what the schema says, and nothing else.  The check
stops at keys exactly if it comes to one that is no text.  Every other value has a fault, and if it
can be shown, this is reported as one that was found by the check, with the code of such faults.
Then, too, no document is kept from being loaded but by an error of the configuration. -/
theorem check_follows_schema (v : Value) :
    (check v = .ok () ↔ IsConfiguration v) ∧
    ((∃ f, check v = .error (.keys f)) ↔ Unlistable v) ∧
    (¬IsConfiguration v → ¬Unlistable v → ∃ f, check v = .error (.fault f) ∧
      (v.isShowable = true →
        (Refusal.fault f).name = "ValidationError" ∧ (Refusal.fault f).code? = some 1)) ∧
    ∀ (s : Settings) (source : Source) (origin : String) (e : Settings.Failure),
      s.load v source origin = .error e → ¬Unlistable v → v.isShowable = true →
        e.name = "ConfigError" ∧ e.code? = some 1 := by
  refine ⟨check_eq_ok_iff_isConfiguration, check_eq_keys_iff, ?_, ?_⟩
  · intro h hlist
    obtain ⟨f, hf⟩ := exists_fault h hlist
    refine ⟨f, hf, ?_⟩
    intro hshow
    have hword := isWordable_of_check hf hshow
    exact ⟨if_pos hword, if_pos hword⟩
  · intro s source origin e he hlist hshow
    rcases Settings.load_eq_error he with ⟨f, hf, rfl⟩ | ⟨f, hf, rfl⟩
    · exact Settings.Failure.reported_of_isWordable (isWordable_of_check hf hshow)
    · exact absurd (check_eq_keys_iff.1 ⟨f, hf⟩) hlist

/-- A truth value in the place of a size, although truth values count as integers elsewhere. -/
theorem check_follows_schema_of_truth_value :
    let v : Value := .mapping [(.text Key.root,
      .mapping [(.text Key.cache, .mapping [(.text Key.maxEntries, .bool true)])])]
    ¬IsConfiguration v ∧ ¬Unlistable v ∧ v.isShowable = true ∧
      ∃ f, check v = .error (.fault f) ∧ (Refusal.fault f).name = "ValidationError" ∧
        (Refusal.fault f).code? = some 1 := by
  intro v
  obtain ⟨haccepted, hkeys, hfault, -⟩ := check_follows_schema v
  have hcheck : check v = .error (.fault (.maxEntries (.bool true))) := rfl
  have hschema : ¬IsConfiguration v := by
    rw [← haccepted, hcheck]
    simp
  have hlist : ¬Unlistable v := by
    rw [← hkeys, hcheck]
    simp
  obtain ⟨f, hf, hreported⟩ := hfault hschema hlist
  exact ⟨hschema, hlist, rfl, f, hf, hreported rfl⟩

/-- **A key that is no text is not reported as a fault.**  Under the root key stands a mapping with
an integer for a key, which is no configuration.  The check does not find the fault, and neither
does loading: the keys cannot be listed. -/
theorem integer_key_is_not_reported :
    let v : Value := .mapping [(.text Key.root, .mapping [(.int 1, .null)])]
    let refusal : Refusal := .keys (.notText 0 .int)
    let failure : Settings.Failure := .keys (.notText 0 .int)
    ¬IsConfiguration v ∧
      check v = .error refusal ∧ refusal.name = "TypeError" ∧ refusal.code? = none ∧
      Settings.initial.load v .runtime Source.runtime.label = .error failure ∧
      failure.name = "TypeError" ∧ failure.code? = none := by
  intro v refusal failure
  have hkeys : checkKeys .root [Key.logging, Key.cache] [(.int 1, .null)] = .error refusal := by
    have hunknown : unknownKeys [Key.logging, Key.cache] [(.int 1, .null)] = [.int 1] := rfl
    have hsorted : sortedNames [.int 1] = .error (.notText 0 .int) := by
      simp [sortedNames, firstUnordered?, texts, Scalar.kind]
    unfold checkKeys
    rw [hunknown]
    dsimp only
    rw [hsorted]
  have hcheck : check v = .error refusal := by
    show checkFields .root [Key.logging, Key.cache] Key.logging checkLogging Key.cache checkCache
      (.mapping [(.int 1, .null)]) = _
    exact checkFields_eq_error_iff.2 (Or.inr ⟨_, rfl, Or.inl hkeys⟩)
  have hschema : ¬IsConfiguration v := by
    rw [← check_eq_ok_iff_isConfiguration, hcheck]
    simp
  refine ⟨hschema, hcheck, rfl, rfl, ?_, rfl, rfl⟩
  unfold Settings.load Settings.entriesOf
  rw [hcheck]

end Schema

end IgnoreRules
