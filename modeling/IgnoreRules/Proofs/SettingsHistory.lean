/-
# The history of settings

Settings start with the defaults, a file that may be named, and the environment.  Then they are
changed: values are written, layers are replaced by documents or by those of files, and layers are
emptied.  A change that fails leaves the settings as they were.

* `Settings.after` makes one change after the other;
* `Settings.layer_step` : all that one change can do to a layer;
* `Settings.WellFormed.after` : no mapping in a layer ever holds a key twice;
* `Settings.Valid.after` : as long as no single values are written, every layer is accepted.
-/
import IgnoreRules.Proofs.ValidSettings

namespace IgnoreRules

namespace Settings

variable {s : Settings} {source : Source}

/-! ## Changes -/

/-- What can be done to settings. -/
inductive Change where
  | set (key : String) (value : Value) (source : Source)
  | load (document : Value) (source : Source)
  | loadFile (R : Document.Reader) (d : Directory) (file : String) (source : Source)
  | clear (source : Source)
  | clearAll

/-- Makes a change, if it does not fail. -/
def Change.apply (s : Settings) : Change → Except Failure Settings
  | .set key value source => s.set key value source
  | .load document source => s.load document source source.label
  | .loadFile R d file source => s.loadFile R d file source
  | .clear source => .ok (s.clear source)
  | .clearAll => .ok s.clearAll

/-- The settings behind a change, which are the old ones if it fails. -/
def step (s : Settings) (c : Change) : Settings :=
  match c.apply s with
  | .ok t => t
  | .error _ => s

/-- The settings behind changes that are made one after the other. -/
def after (s : Settings) (changes : List Change) : Settings := changes.foldl step s

/-- What every change keeps is kept by any number of them. -/
theorem after_induction {P : Settings → Prop} {Q : Change → Prop}
    (hstep : ∀ s c, P s → Q c → P (s.step c)) (hs : P s) {changes : List Change}
    (hc : ∀ c ∈ changes, Q c) : P (s.after changes) := by
  induction changes generalizing s with
  | nil => exact hs
  | cons c cs ih =>
    exact ih (hstep s c hs (hc c List.mem_cons_self)) fun d hd => hc d (List.mem_cons_of_mem c hd)

/-! ## What changes do to layers -/

/-- Emptying one layer leaves the others, and the defaults anyway. -/
theorem layer_clear (s : Settings) (source t : Source) :
    (s.clear source).layer t = if t = source ∧ source ≠ .defaults then [] else s.layer t := by
  rw [clear]
  by_cases hd : source = .defaults
  · rw [if_pos hd, if_neg (fun h => h.2 hd)]
  · rw [if_neg hd]
    by_cases ht : t = source
    · rw [if_pos ⟨ht, hd⟩, ht, layer_replace_self]
    · rw [if_neg (fun h => ht h.1), layer_replace_of_ne s [] ht]

/-- Emptying all layers leaves the defaults. -/
theorem layer_clearAll (s : Settings) (t : Source) :
    s.clearAll.layer t = if t = .defaults then s.layer t else [] := by
  cases t <;> simp [clearAll, Source.ascending, layer_clear]

/-- The change puts `after` where the layer of `source` was `before`. -/
def Change.Writes (source : Source) (before after : Entries) : Change → Prop
  | .set key value t => t = source ∧ before.putPath value (parts key) = .ok after
  | .load document t => t = source ∧ document = .mapping after ∧
      Schema.check (.mapping after) = .ok ()
  | .loadFile _ _ _ t => t = source ∧ after.WellFormed ∧ Schema.check (.mapping after) = .ok ()
  | .clear _ => source ≠ .defaults ∧ after = []
  | .clearAll => source ≠ .defaults ∧ after = []

/-- **All that a change can do to a layer** is to write it. -/
theorem layer_step (s : Settings) (c : Change) (source : Source) :
    (s.step c).layer source = s.layer source ∨
      c.Writes source (s.layer source) ((s.step c).layer source) := by
  rw [step]
  cases happly : c.apply s with
  | error e =>
    -- a change that fails leaves all layers as they are
    exact Or.inl rfl
  | ok t =>
    cases c with
    | set key value t =>
      rw [Change.apply, set] at happly
      split at happly
      · next es hput =>
        cases happly
        rcases layer_replace_cases s t source
          (P := fun es => (s.layer t).putPath value (parts key) = .ok es) hput with
          hsame | ⟨rfl, hes⟩
        · exact Or.inl hsame
        · exact Or.inr ⟨rfl, hes⟩
      · cases happly
    | load document t =>
      obtain ⟨es, hdocument, hcheck, rfl⟩ := load_eq_ok_iff.1 happly
      rw [hdocument] at hcheck
      exact layer_replace_cases s t source
        (P := fun es => document = .mapping es ∧ Schema.check (.mapping es) = .ok ())
        ⟨hdocument, hcheck⟩
    | loadFile R d file t =>
      obtain ⟨es, hwell, hcheck, rfl⟩ := exists_document_of_loadFile happly
      exact layer_replace_cases s t source
        (P := fun es => es.WellFormed ∧ Schema.check (.mapping es) = .ok ()) ⟨hwell, hcheck⟩
    | clear t =>
      cases happly
      dsimp only
      rw [layer_clear]
      split
      · next h => exact Or.inr ⟨h.1 ▸ h.2, rfl⟩
      · exact Or.inl rfl
    | clearAll =>
      cases happly
      dsimp only
      rw [layer_clearAll]
      split
      · exact Or.inl rfl
      · next h => exact Or.inr ⟨h, rfl⟩

/-! ## Well-formed layers -/

/-- What a change brings holds no key twice. -/
def Change.WellFormed : Change → Prop
  | .set _ value _ => value.WellFormed
  | .load document _ => document.WellFormed
  | _ => True

/-- Well-formed changes keep settings well-formed. -/
theorem WellFormed.step (hs : s.WellFormed) {c : Change} (hc : c.WellFormed) :
    (s.step c).WellFormed := by
  intro source
  rcases layer_step s c source with hsame | hwrites
  · rw [hsame]
    exact hs source
  · cases c with
    | set key value t => exact (hs source).putPath hc hwrites.2
    | load document t =>
      obtain ⟨-, hdocument, -⟩ := hwrites
      rw [Change.WellFormed, hdocument] at hc
      exact hc
    | loadFile R d file t => exact hwrites.2.1
    | clear t =>
      rw [hwrites.2]
      exact Entries.wellFormed_nil
    | clearAll =>
      rw [hwrites.2]
      exact Entries.wellFormed_nil

/-- **Whatever is done to settings, no layer holds a key twice.** -/
theorem WellFormed.after (hs : s.WellFormed) {changes : List Change}
    (hc : ∀ c ∈ changes, c.WellFormed) : (s.after changes).WellFormed :=
  after_induction (fun _ _ hs hc => hs.step hc) hs hc

/-! ## Valid layers -/

/-- The change writes a single value, which nobody checks. -/
def Change.isSet : Change → Bool
  | .set .. => true
  | _ => false

/-- What a change writes was checked, unless it is a single value. -/
theorem Change.Writes.check {c : Change} {before after : Entries}
    (h : c.Writes source before after) (hc : c.isSet = false) :
    Schema.check (.mapping after) = .ok () := by
  cases c with
  | set key value t => cases hc
  | load document t => exact h.2.2
  | loadFile R d file t => exact h.2.2
  | clear t =>
    rw [h.2]
    rfl
  | clearAll =>
    rw [h.2]
    rfl

/-- Changes that are checked keep settings valid. -/
theorem Valid.step (hs : s.Valid) {c : Change} (hc : c.isSet = false) : (s.step c).Valid := by
  intro source
  rcases layer_step s c source with hsame | hwrites
  · rw [hsame]
    exact hs source
  · exact hwrites.check hc

/-- **Layers that are loaded and emptied stay valid.** -/
theorem Valid.after (hs : s.Valid) {changes : List Change} (hc : ∀ c ∈ changes, c.isSet = false) :
    (s.after changes).Valid :=
  after_induction (fun _ _ hs hc => hs.step hc) hs hc

end Settings

end IgnoreRules
