/-
# Changes in place

A value is written by going along its path and making the mappings that are missing, one after the
other, in the very layer that is in use.  If the work then fails, nothing takes back what was made
until then.  This module follows the changes in this way, on layers that keep whatever was done to
them before a failure, and finds that nothing was: a value in the way is met before anything is
made, and a document is put in its place as the last step of all.

* `Entries.putPath_eq_error_iff` : writing fails exactly if some value is in the way;
* `Entries.write_eq` : then the entries are what they were, and else the value is written;
* `Change.ends_inPlace` : in place, changes do what they do to settings, and fail when these do;
* `failed_changes_leave_no_trace` : a failed change cannot be told from none.
-/
import IgnoreRules.Proofs.LayerOrder

namespace IgnoreRules

/-! ## Values in the way -/

namespace Value

variable {v : Value} {es : Entries} {p : String} {path : List String}

/-- On the way along the path, or at its end, stands a value that is no mapping. -/
def Blocks (v : Value) (path : List String) : Prop :=
  ∃ front w, front <+: path ∧ v.walk front = some w ∧ w.kind ≠ .mapping

/-- Whatever is no mapping blocks every path. -/
theorem blocks_of_kind_ne (h : v.kind ≠ .mapping) (path : List String) : v.Blocks path :=
  ⟨[], v, List.nil_prefix, walk_nil v, h⟩

theorem kind_scalar_ne (s : Scalar) : (scalar s).kind ≠ .mapping := by
  cases s <;> (intro h; cases h)

theorem blocks_scalar (s : Scalar) (path : List String) : (scalar s).Blocks path :=
  blocks_of_kind_ne (kind_scalar_ne s) path

theorem blocks_list (items : List Value) (path : List String) : (list items).Blocks path := by
  refine blocks_of_kind_ne ?_ path
  intro h
  cases h

/-- A mapping is not in the way itself. -/
theorem not_blocks_mapping_nil (es : Entries) : ¬ (mapping es).Blocks [] := by
  rintro ⟨front, w, hfront, hwalk, hkind⟩
  rw [List.prefix_nil.1 hfront, walk_nil] at hwalk
  cases hwalk
  exact hkind rfl

/-- What is in the way through a mapping is in the way of the rest of the path. -/
theorem blocks_mapping_cons_iff :
    (mapping es).Blocks (p :: path) ↔ ∃ v, es.get? (.text p) = some v ∧ v.Blocks path := by
  constructor
  · rintro ⟨front, w, hfront, hwalk, hkind⟩
    rcases List.prefix_cons_iff.1 hfront with rfl | ⟨ps, rfl, hps⟩
    · exact absurd ⟨[], w, List.nil_prefix, hwalk, hkind⟩ (not_blocks_mapping_nil es)
    · rw [walk_cons] at hwalk
      obtain ⟨v, hv, hwalk⟩ := Option.bind_eq_some_iff.1 hwalk
      exact ⟨v, hv, ps, w, hps, hwalk, hkind⟩
  · rintro ⟨v, hv, ps, w, hps, hwalk, hkind⟩
    refine ⟨p :: ps, w, List.cons_prefix_cons.2 ⟨rfl, hps⟩, ?_, hkind⟩
    rw [walk_cons, hv]
    exact hwalk

/-- Where nothing is, nothing is in the way. -/
theorem not_blocks_mapping_of_nil (path : List String) : ¬ (mapping []).Blocks path := by
  cases path with
  | nil => exact not_blocks_mapping_nil []
  | cons p ps =>
    rw [blocks_mapping_cons_iff]
    rintro ⟨v, hv, -⟩
    cases hv

end Value

namespace Entries

variable {es fs : Entries} {value v w : Value} {p q : String} {ps path : List String}

/-- **Writing a value fails exactly if something else than a mapping is in the way**, at a place in
front of the end of its path. -/
theorem putPath_eq_error_iff (value : Value) :
    (∃ cause, es.putPath value path = .error cause) ↔ (Value.mapping es).Blocks path.dropLast := by
  induction path generalizing es with
  | nil => simpa [putPath] using Value.not_blocks_mapping_nil es
  | cons p path ih =>
    cases path with
    | nil => simpa [putPath] using Value.not_blocks_mapping_nil es
    | cons q ps =>
      -- what lies behind the first key fails or not, whatever becomes of its result
      have hmap : ∀ sub, (∃ cause, ((putPath value (q :: ps) sub).map
          fun sub => es.put (.text p) (.mapping sub)) = .error cause) ↔
          (Value.mapping sub).Blocks (q :: ps).dropLast := by
        intro sub
        rw [← ih]
        cases putPath value (q :: ps) sub <;> simp [Except.map]
      rw [List.dropLast_cons_cons, Value.blocks_mapping_cons_iff, putPath]
      cases hget : es.get? (.text p) with
      | none =>
        rw [hmap]
        simpa using Value.not_blocks_mapping_of_nil _
      | some v =>
        simp only [Option.some.injEq, exists_eq_left']
        cases v with
        | mapping sub => exact hmap sub
        | scalar s => exact iff_of_true ⟨_, rfl⟩ (Value.blocks_scalar s _)
        | list items => exact iff_of_true ⟨_, rfl⟩ (Value.blocks_list items _)

/-- So where a value was written, nothing was in the way. -/
theorem not_blocks_of_putPath (h : es.putPath value path = .ok fs) :
    ¬(Value.mapping es).Blocks path.dropLast := by
  intro hblocks
  obtain ⟨cause, hcause⟩ := (putPath_eq_error_iff value).2 hblocks
  rw [h] at hcause
  cases hcause

/-- Into no entries at all a value can always be written. -/
theorem exists_putPath_nil (value : Value) (path : List String) :
    ∃ fs, putPath value path [] = .ok fs := by
  cases h : putPath value path [] with
  | ok fs => exact ⟨fs, rfl⟩
  | error cause =>
    exact absurd ((putPath_eq_error_iff value).1 ⟨cause, h⟩) (Value.not_blocks_mapping_of_nil _)

/-! ## Writing in place -/

/-- The value of a key, which is put there if it is missing, and the entries with it. -/
def setDefault (key : Scalar) (default : Value) (es : Entries) : Value × Entries :=
  match es.get? key with
  | some v => (v, es)
  | none => (default, es.put key default)

/-- How far the writing of a value has come. -/
structure Writing where
  /-- The entries as they are now. -/
  entries : Entries
  /-- Why it did not go on. -/
  stopped : Option Blocked

/-- Writes a value at the end of a path.  Each mapping on the way is made when it is come to and
missing, and what was made stays, also if the way is blocked further on. -/
def write (value : Value) : List String → Entries → Writing
  | [], es => ⟨es, none⟩
  | [p], es => ⟨es.put (.text p) value, none⟩
  | p :: q :: ps, es =>
      match es.setDefault (.text p) (.mapping []) with
      | (.mapping sub, made) =>
          let below := write value (q :: ps) sub
          ⟨made.put (.text p) (.mapping below.entries), below.stopped⟩
      | (v, made) => ⟨made, some (if ps.isEmpty then .last v.kind else .within v.kind)⟩

/-- Writing what is there changes nothing. -/
theorem put_of_get? {key : Scalar} (h : es.get? key = some v) : es.put key v = es := by
  induction es with
  | nil => cases h
  | cons e es ih =>
    obtain ⟨k, w⟩ := e
    rw [get?_cons] at h
    rw [put_cons]
    split at h
    · next hk =>
      cases h
      rw [if_pos hk]
    · next hk => rw [if_neg hk, ih h]

/-- Of two values that are written under one key the second stays. -/
theorem put_put (es : Entries) (p : String) (v w : Value) :
    (es.put (.text p) v).put (.text p) w = es.put (.text p) w := by
  induction es with
  | nil => simp
  | cons e es ih =>
    obtain ⟨k, u⟩ := e
    rw [put_cons, put_cons]
    split
    · next hk => rw [put_cons, if_pos hk]
    · next hk => rw [put_cons, if_neg hk, ih]

/-- **In place, a value is written or nothing is changed.**  Mappings are made only where nothing
was, and then nothing is in the way any more. -/
theorem write_eq (value : Value) (path : List String) (es : Entries) :
    es.write value path = match es.putPath value path with
      | .ok fs => ⟨fs, none⟩
      | .error cause => ⟨es, some cause⟩ := by
  induction path generalizing es with
  | nil => rfl
  | cons p path ih =>
    cases path with
    | nil => rfl
    | cons q ps =>
      rw [write, putPath, setDefault]
      cases hget : es.get? (.text p) with
      | none =>
        obtain ⟨sub, hsub⟩ := exists_putPath_nil value (q :: ps)
        simp only [ih, hsub, Except.map, put_put]
      | some v =>
        cases v with
        | mapping sub =>
          simp only [ih]
          cases putPath value (q :: ps) sub with
          | ok fs => rfl
          | error cause => simp only [Except.map, put_of_get? hget]
        | scalar s => rfl
        | list items => rfl

end Entries

namespace Settings

/-! ## Changes in place -/

/-- To replace a layer by what it is changes nothing. -/
theorem replace_layer_self (s : Settings) (source : Source) :
    s.replace source (s.layer source) = s := by
  apply eq_of_layer
  intro t
  by_cases ht : t = source
  · rw [ht, layer_replace_self]
  · rw [layer_replace_of_ne _ _ ht]

namespace Layers

/-- The layers with one for the source, which is empty if it is made now. -/
def make (l : Layers) (source : Source) : Layers :=
  if source ∈ l.made.map Prod.fst then l else l.put source []

/-- Writes a value in the layer of a source as far as this goes, and says why it did not go on. -/
def write (l : Layers) (key : String) (value : Value) (source : Source) :
    Option Blocked × Layers :=
  let written := (l.settings.layer source).write value (parts key)
  (written.stopped, l.put source written.entries)

/-- A layer without entries says what no layer says. -/
theorem settings_make (l : Layers) (source : Source) : (l.make source).settings = l.settings := by
  rw [make]
  split
  · rfl
  · next hnew =>
    have hlookup : l.made.lookup source = none := by
      rw [Option.eq_none_iff_forall_ne_some]
      intro es hes
      exact hnew (List.mem_map_of_mem ((l.lookup_eq_some_iff source es).1 hes))
    have hempty : l.settings.layer source = [] := by rw [layer_settings, hlookup, Option.getD_none]
    rw [settings_put, ← hempty, replace_layer_self]

/-- What writing a value does to the layers, which do not tell whether one was made for it. -/
theorem write_make (l : Layers) (key : String) (value : Value) (source : Source) :
    (l.make source).write key value source =
      match (l.settings.layer source).putPath value (parts key) with
      | .ok es => (none, (l.make source).put source es)
      | .error cause => (some cause, (l.make source).put source (l.settings.layer source)) := by
  rw [write, settings_make, Entries.write_eq]
  cases (l.settings.layer source).putPath value (parts key) <;> rfl

end Layers

/-- Work on layers.  What it did until it failed stays. -/
abbrev Work := EStateM Failure Layers

/-- Puts a document in the place of the layer of a source, if that is a configuration. -/
def store (document : Value) (source : Source) (origin : String) : Work Unit :=
  match entriesOf document origin with
  | .error e => throw e
  | .ok es => modify (·.put source es)

/-- Makes a change step by step in the layers themselves. -/
def Change.inPlace : Change → Work Unit
  | .set key value source => do
      modify (·.make source)
      match ← modifyGet (·.write key value source) with
      | none => pure ()
      | some cause => throw (.blocked cause)
  | .load document source => store document source source.label
  | .loadFile R d file source =>
      match documentOf R d file with
      | .error e => throw e
      | .ok document => store document source file
  | .clear source => modify (·.keep fun t => t = .defaults || t ≠ source)
  | .clearAll => modify (·.keep fun t => t = .defaults)

/-- In place, layers end as the settings do that they stand for, or where they began. -/
inductive Ends (l : Layers) : EStateM.Result Failure Layers Unit → Except Failure Settings → Prop
  | done (l' : Layers) : Ends l (.ok () l') (.ok l'.settings)
  | failed (e : Failure) {l' : Layers} (h : l'.settings = l.settings) :
      Ends l (.error e l') (.error e)

variable {c : Change} {l l' : Layers} {e : Failure}

/-- **Storing a document in place ends as loading it does.** -/
theorem ends_store (l : Layers) (document : Value) (source : Source) (origin : String) :
    Ends l ((store document source origin).run l) (l.settings.load document source origin) := by
  rw [store, load]
  cases entriesOf document origin with
  | error e => exact .failed e rfl
  | ok es =>
    dsimp only
    rw [← Layers.settings_put]
    exact .done _

/-- Reading a document does nothing to the layers. -/
theorem ends_loadFile (l : Layers) (R : Document.Reader) (d : Directory) (file : String)
    (source : Source) :
    Ends l ((Change.loadFile R d file source).inPlace.run l)
      (l.settings.loadFile R d file source) := by
  rw [Change.inPlace, loadFile]
  cases documentOf R d file with
  | error e => exact .failed e rfl
  | ok document => exact ends_store l document source file

/-- The value is written, or the layer of the source is put back as it was. -/
theorem ends_set (l : Layers) (key : String) (value : Value) (source : Source) :
    Ends l ((Change.set key value source).inPlace.run l) (l.settings.set key value source) := by
  rw [Change.inPlace, EStateM.run_bind, EStateM.run_modify]
  dsimp only
  rw [EStateM.run_bind, EStateM.run_modifyGet, Layers.write_make, set]
  cases (l.settings.layer source).putPath value (parts key) with
  | ok es =>
    have h : ((l.make source).put source es).settings = l.settings.replace source es := by
      rw [Layers.settings_put, Layers.settings_make]
    dsimp only
    rw [← h]
    exact .done _
  | error cause =>
    apply Ends.failed
    rw [Layers.settings_put, Layers.settings_make, replace_layer_self]

/-- **In place, changes do what they do to settings**, and where they fail they leave the settings
that they found. -/
theorem Change.ends_inPlace (c : Change) (l : Layers) :
    Ends l (c.inPlace.run l) (c.apply l.settings) := by
  cases c with
  | set key value source => exact ends_set l key value source
  | load document source => exact ends_store l document source source.label
  | loadFile R d file source => exact ends_loadFile l R d file source
  | clear source =>
    have h : l.settings.clear source = (l.keep fun t => t = .defaults || t ≠ source).settings :=
      (Layers.settings_step l (.clear source)).symm
    rw [Change.apply, h]
    exact .done _
  | clearAll =>
    have h : l.settings.clearAll = (l.keep fun t => t = .defaults).settings :=
      (Layers.settings_step l .clearAll).symm
    rw [Change.apply, h]
    exact .done _

/-! ## Failed changes -/

/-- A change that fails in place fails, and leaves the settings as they were. -/
theorem inPlace_eq_error (h : c.inPlace.run l = .error e l') :
    c.apply l.settings = .error e ∧ l'.settings = l.settings := by
  have hends := c.ends_inPlace l
  rw [h] at hends
  generalize happly : c.apply l.settings = result at hends
  cases hends with
  | failed _ hl => exact ⟨rfl, hl⟩

/-- A change that succeeds in place makes the same settings. -/
theorem inPlace_eq_ok (h : c.inPlace.run l = .ok () l') : c.apply l.settings = .ok l'.settings := by
  have hends := c.ends_inPlace l
  rw [h] at hends
  generalize happly : c.apply l.settings = result at hends
  cases hends with
  | done => rfl

/-- A change fails in place exactly if it fails. -/
theorem exists_inPlace_error_iff (c : Change) (l : Layers) :
    (∃ e l', c.inPlace.run l = .error e l') ↔ ∃ e, c.apply l.settings = .error e := by
  constructor
  · rintro ⟨e, l', h⟩
    exact ⟨e, (inPlace_eq_error h).1⟩
  · rintro ⟨e, happly⟩
    cases h : c.inPlace.run l with
    | ok _ l' => cases happly.symm.trans (inPlace_eq_ok h)
    | error e l' => exact ⟨e, l', rfl⟩

/-- A value cannot be written exactly if the way to it is blocked. -/
theorem exists_set_error_iff (s : Settings) (key : String) (value : Value) (source : Source) :
    (∃ e, s.set key value source = .error e) ↔
      (Value.mapping (s.layer source)).Blocks (parts key).dropLast := by
  rw [← Entries.putPath_eq_error_iff value, set]
  cases (s.layer source).putPath value (parts key) <;> simp

/-- **Failed changes leave no trace.**  In place, the value of a key cannot be written exactly if,
along the parts of the key in front of the last one, the layer of the source holds a value that is
no mapping.  Whenever a change fails, be it that a value is written, or that a document or that of
a file is loaded, every key has the value that it had before, for every default, and the one mapping
of all layers is the same.  And changes fail or end in place as they do on settings. -/
theorem failed_changes_leave_no_trace (l : Layers) :
    (∀ key value source, (∃ e l', (Change.set key value source).inPlace.run l = .error e l') ↔
      (Value.mapping (l.settings.layer source)).Blocks (parts key).dropLast) ∧
    (∀ (c : Change) e l', c.inPlace.run l = .error e l' →
      c.apply l.settings = .error e ∧
      (∀ key default, l'.get key default = l.get key default) ∧ l'.all = l.all) ∧
    ∀ (c : Change) l', c.inPlace.run l = .ok () l' → c.apply l.settings = .ok l'.settings := by
  refine ⟨?_, ?_, ?_⟩
  · intro key value source
    rw [exists_inPlace_error_iff]
    exact exists_set_error_iff l.settings key value source
  · intro c e l' h
    obtain ⟨happly, hsettings⟩ := inPlace_eq_error h
    refine ⟨happly, ?_, ?_⟩
    · intro key default
      rw [Layers.get_eq, Layers.get_eq, hsettings]
    · rw [Layers.all_eq, Layers.all_eq, hsettings]
  · intro c l' h
    exact inPlace_eq_ok h

/-- Two changes that fail, where a number stands in the way, and where a document is no mapping, and
one that makes a mapping on its way. -/
theorem failed_changes_leave_no_trace_of_number :
    let l := Layers.initial.put .runtime [(.text "a", .mapping [(.text "b", .int 1)])]
    let blocked : Change := .set "a.b.c.d" .null .runtime
    let refused : Change := .load (.list []) .runtime
    let written : Change := .set "a.c.d" (.int 2) .runtime
    ∃ e l₁ l₂ l₃, blocked.inPlace.run l = .error e l₁ ∧ l₁.all = l.all ∧
      refused.inPlace.run l = .error (.invalid "runtime" (.notMapping .document)) l₂ ∧
      l₂.all = l.all ∧
      written.inPlace.run l = .ok () l₃ ∧ written.apply l.settings = .ok l₃.settings := by
  intro l blocked refused written
  obtain ⟨hset, hfailed, hdone⟩ := failed_changes_leave_no_trace l
  have hblocks : (Value.mapping (l.settings.layer .runtime)).Blocks ["a", "b", "c"] :=
    ⟨["a", "b"], .int 1, ⟨["c"], rfl⟩, rfl, fun h => by cases h⟩
  have hparts : (parts "a.b.c.d").dropLast = ["a", "b", "c"] := by decide
  obtain ⟨e, l₁, hblocked⟩ := (hset "a.b.c.d" .null .runtime).2 (by rw [hparts]; exact hblocks)
  have hrefused : refused.inPlace.run l
      = .error (.invalid "runtime" (.notMapping .document)) l := rfl
  have hwritten : ∃ l₃, written.inPlace.run l = .ok () l₃ := ⟨_, rfl⟩
  obtain ⟨l₃, hwritten⟩ := hwritten
  exact ⟨e, l₁, l, l₃, hblocked, (hfailed blocked e l₁ hblocked).2.2, hrefused,
    (hfailed refused _ l hrefused).2.2, hwritten, hdone written l₃ hwritten⟩

end Settings

end IgnoreRules
