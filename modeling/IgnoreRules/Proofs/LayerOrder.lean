/-
# Layers in the order in which they were made

A layer can be made when its source is first written to, and be taken away when its source is
emptied.  Layers that are kept in this way stand in the order in which they were made.  Nobody can
tell: what is found in them, and what they are merged to, goes by the precedence of their sources
alone.

* `Layers` : the layers that were made, the oldest first;
* `Layers.ascending` : the same layers by precedence;
* `Layers.get?_eq`, `Layers.all_eq` : what is found and merged is what the settings say;
* `Layers.settings_after` : changes do to the layers what they do to the settings.
-/
import IgnoreRules.Proofs.MergedLayers
import Mathlib.Data.List.Sort

namespace IgnoreRules

/-! ## Precedence -/

/-- The place of a source in the order of precedence. -/
def Source.rank : Source → Nat
  | .defaults => 1
  | .user => 2
  | .environment => 3
  | .commandLine => 4
  | .runtime => 5

/-- No two sources have the same rank. -/
theorem Source.rank_injective : Function.Injective Source.rank := by
  intro s t h
  cases s <;> cases t <;> first | rfl | cases h

/-- The sources stand in the order of their ranks. -/
theorem Source.pairwise_ascending : ascending.Pairwise fun s t => s.rank < t.rank := by
  decide

namespace Settings

/-- Settings are nothing but their layers. -/
theorem eq_of_layer {s t : Settings} (h : ∀ source, s.layer source = t.layer source) : s = t := by
  obtain ⟨layer⟩ := s
  obtain ⟨layer'⟩ := t
  obtain rfl : layer = layer' := funext h
  rfl

/-! ## Layers that were made -/

/-- The layers that were made, the oldest first.  A source has at most one layer. -/
structure Layers where
  made : List (Source × Entries)
  nodup : (made.map Prod.fst).Nodup

namespace Layers

/-- At first there are the defaults. -/
def initial : Layers := ⟨[(.defaults, defaultLayer)], List.nodup_singleton _⟩

/-- The settings that the layers stand for: a source without a layer says nothing. -/
def settings (l : Layers) : Settings := ⟨fun source => (l.made.lookup source).getD []⟩

/-- The first layers are those of the initial settings. -/
theorem settings_initial : initial.settings = Settings.initial := by
  apply eq_of_layer
  intro source
  cases source <;> rfl

/-- The layers by the precedence of their sources, the lowest first. -/
def ascending (l : Layers) : List (Source × Entries) :=
  l.made.mergeSort fun a b => a.1.rank ≤ b.1.rank

/-- The value of a key, from the layer of highest precedence that has one. -/
def get? (l : Layers) (key : String) : Option Value :=
  l.ascending.reverse.findSome? fun e => valueIn? e.2 (parts key)

/-- The value of a key, or the given one when there is none. -/
def get (l : Layers) (key : String) (default : Value) : Value := (l.get? key).getD default

/-- All layers as one mapping. -/
def all (l : Layers) : Entries :=
  l.ascending.foldl (fun merged e => Entries.merge merged e.2) []

/-! ## Sorting -/

/-- A source has at most one layer. -/
theorem lookup_eq_some_iff (l : Layers) (source : Source) (es : Entries) :
    l.made.lookup source = some es ↔ (source, es) ∈ l.made := by
  have hmem : ∀ made : List (Source × Entries), (made.map Prod.fst).Nodup →
      (made.lookup source = some es ↔ (source, es) ∈ made) := by
    intro made hmade
    induction made with
    | nil => simp
    | cons e made ih =>
      obtain ⟨t, fs⟩ := e
      rw [List.map_cons, List.nodup_cons] at hmade
      by_cases ht : source = t
      · -- no other layer belongs to this source
        subst ht
        have hother : (source, es) ∉ made :=
          fun h => hmade.1 (List.mem_map.2 ⟨(source, es), h, rfl⟩)
        rw [List.lookup_cons_self, List.mem_cons, or_iff_left hother, Option.some.injEq,
          Prod.mk.injEq, eq_comm, and_iff_right rfl]
      · have hbeq : (source == t) = false := beq_eq_false_iff_ne.2 ht
        have hne : (source, es) ≠ (t, fs) := fun h => ht (congrArg Prod.fst h)
        rw [List.lookup_cons, hbeq, List.mem_cons, or_iff_right hne]
        exact ih hmade.2
  exact hmem l.made l.nodup

theorem nodup_made (l : Layers) : l.made.Nodup := l.nodup.of_map _

/-- The layers of all sources in their order, where these have one. -/
def inOrder (l : Layers) : List (Source × Entries) :=
  Source.ascending.filterMap fun source => (l.made.lookup source).map fun es => (source, es)

theorem mem_inOrder (l : Layers) (e : Source × Entries) : e ∈ l.inOrder ↔ e ∈ l.made := by
  obtain ⟨source, es⟩ := e
  simp [inOrder, Source.mem_ascending, lookup_eq_some_iff]

/-- Sorted layers have ranks that go up. -/
theorem pairwise_inOrder (l : Layers) : l.inOrder.Pairwise fun a b => a.1.rank < b.1.rank := by
  refine Source.pairwise_ascending.filterMap _ ?_
  intro s t hlt a ha b hb
  obtain ⟨-, -, rfl⟩ := Option.map_eq_some_iff.1 ha
  obtain ⟨-, -, rfl⟩ := Option.map_eq_some_iff.1 hb
  exact hlt

theorem pairwise_ascending (l : Layers) :
    l.ascending.Pairwise fun a b => a.1.rank ≤ b.1.rank := by
  have h : l.ascending.Pairwise fun a b => decide (a.1.rank ≤ b.1.rank) = true :=
    List.pairwise_mergeSort
      (fun _ _ _ hab hbc => decide_eq_true ((of_decide_eq_true hab).trans (of_decide_eq_true hbc)))
      (fun a b => by simpa using Nat.le_total a.1.rank b.1.rank) l.made
  exact h.imp of_decide_eq_true

/-- **Sorted layers are those of all sources in their order.** -/
theorem ascending_eq (l : Layers) : l.ascending = l.inOrder := by
  have hperm : l.ascending.Perm l.made := List.mergeSort_perm _ _
  have hantisymm : ∀ a b : Source × Entries, a ∈ l.ascending → b ∈ l.inOrder →
      a.1.rank ≤ b.1.rank → b.1.rank ≤ a.1.rank → a = b := by
    -- layers of the same rank belong to the same source, and so they are the same
    rintro ⟨s, es⟩ ⟨t, fs⟩ hs ht hst hts
    obtain rfl := Source.rank_injective (Nat.le_antisymm hst hts)
    have hes := (l.lookup_eq_some_iff s es).2 (hperm.mem_iff.1 hs)
    have hfs := (l.lookup_eq_some_iff s fs).2 ((l.mem_inOrder _).1 ht)
    rw [Option.some.inj (hes.symm.trans hfs)]
  refine List.Perm.eq_of_pairwise hantisymm l.pairwise_ascending
    (l.pairwise_inOrder.imp Nat.le_of_lt) ?_
  have hnodup : l.inOrder.Nodup := by
    refine l.pairwise_inOrder.imp ?_
    rintro a b hlt rfl
    exact Nat.lt_irrefl _ hlt
  exact hperm.trans ((List.perm_ext_iff_of_nodup l.nodup_made hnodup).2
    fun e => (l.mem_inOrder e).symm)

/-! ## Looking up and merging -/

theorem layer_settings (l : Layers) (source : Source) :
    l.settings.layer source = (l.made.lookup source).getD [] := rfl

/-- **What is found in the layers is what the settings say**, in whatever order they were made. -/
theorem get?_eq (l : Layers) (key : String) : l.get? key = l.settings.get? key := by
  have hempty : valueIn? [] (parts key) = none := by
    obtain ⟨p, ps, hparts⟩ := List.exists_cons_of_ne_nil (parts_ne_nil key)
    rw [hparts]
    rfl
  rw [get?, ascending_eq, inOrder, Settings.get?, find?, ← List.filterMap_reverse]
  induction Source.ascending.reverse with
  | nil => rfl
  | cons t sources ih =>
    rw [List.findSome?_cons, layer_settings]
    cases ht : l.made.lookup t with
    | none =>
      -- a source without a layer has no value
      rw [List.filterMap_cons_none (by rw [ht]; rfl), ih]
      dsimp only [Option.getD_none]
      rw [hempty]
    | some es =>
      rw [List.filterMap_cons_some (by rw [ht]; rfl), List.findSome?_cons, ih]
      rfl

/-- **Looking up in the layers is looking up in the settings**, in whatever order the layers were
made. -/
theorem get_eq (l : Layers) (key : String) (default : Value) :
    l.get key default = l.settings.get key default := by
  rw [get, get?_eq, Settings.get]

/-- **What the layers are merged to is the one mapping of the settings**, with the same order of
keys. -/
theorem all_eq (l : Layers) : l.all = l.settings.all := by
  rw [all, ascending_eq, inOrder, Settings.all, List.foldl_filterMap]
  congr 1
  funext merged t
  rw [layer_settings]
  cases l.made.lookup t with
  | none =>
    -- nothing is laid over
    exact (Entries.merge_nil merged).symm
  | some es => rfl

/-! ## Writing -/

/-- Writes the layer of a source, which comes last if it is made now. -/
def put (l : Layers) (source : Source) (es : Entries) : Layers where
  made :=
    if source ∈ l.made.map Prod.fst then
      l.made.map fun e => if e.1 = source then (source, es) else e
    else l.made ++ [(source, es)]
  nodup := by
    split
    · have hkeys : (l.made.map fun e => if e.1 = source then (source, es) else e).map Prod.fst
          = l.made.map Prod.fst := by
        rw [List.map_map]
        refine List.map_congr_left fun e _ => ?_
        by_cases he : e.1 = source
        · rw [Function.comp_apply, if_pos he, he]
        · rw [Function.comp_apply, if_neg he]
      rw [hkeys]
      exact l.nodup
    · next hnew =>
      rw [List.map_append]
      exact l.nodup.append (List.nodup_singleton _) (by simpa using hnew)

/-- Keeps the layers of some sources, and takes the others away. -/
def keep (l : Layers) (sources : Source → Bool) : Layers where
  made := l.made.filter fun e => sources e.1
  nodup := l.nodup.sublist (List.filter_sublist.map _)

/-- Makes a change, if it does not fail.  A layer is made when it is first written, and emptying
its source takes it away, unless it is that of the defaults. -/
def step (l : Layers) (c : Change) : Layers :=
  match c.apply l.settings with
  | .error _ => l
  | .ok s =>
      match c with
      | .set _ _ source | .load _ source | .loadFile _ _ _ source => l.put source (s.layer source)
      | .clear source => l.keep fun t => t = .defaults || t ≠ source
      | .clearAll => l.keep fun t => t = .defaults

/-- The layers behind changes that are made one after the other. -/
def after (l : Layers) (changes : List Change) : Layers := changes.foldl step l

/-- Replacing a layer leaves those of the other sources. -/
theorem mem_made_put {l : Layers} {source : Source} {es : Entries} {e : Source × Entries} :
    e ∈ (l.put source es).made ↔ e = (source, es) ∨ e ∈ l.made ∧ e.1 ≠ source := by
  dsimp only [put]
  by_cases hsource : source ∈ l.made.map Prod.fst
  · -- the layer that is there is written over
    rw [if_pos hsource, List.mem_map]
    obtain ⟨old, hold, rfl⟩ := List.mem_map.1 hsource
    constructor
    · rintro ⟨d, hd, rfl⟩
      by_cases hds : d.1 = old.1
      · exact Or.inl (if_pos hds)
      · rw [if_neg hds]
        exact Or.inr ⟨hd, hds⟩
    · rintro (rfl | ⟨he, hne⟩)
      · exact ⟨old, hold, if_pos rfl⟩
      · exact ⟨e, he, if_neg hne⟩
  · -- no other layer belongs to the source
    have hne : e ∈ l.made → e.1 ≠ source := by
      rintro he rfl
      exact hsource (List.mem_map_of_mem he)
    rw [if_neg hsource, List.mem_append, List.mem_singleton, or_comm, and_iff_left_of_imp hne]

/-- Replacing a layer replaces that of the settings. -/
theorem settings_put (l : Layers) (source : Source) (es : Entries) :
    (l.put source es).settings = l.settings.replace source es := by
  apply eq_of_layer
  intro t
  rw [layer_settings]
  by_cases ht : t = source
  · rw [ht, layer_replace_self, (lookup_eq_some_iff _ source es).2 (mem_made_put.2 (Or.inl rfl))]
    rfl
  · have hlookup : (l.put source es).made.lookup t = l.made.lookup t := by
      ext fs
      rw [lookup_eq_some_iff, lookup_eq_some_iff, mem_made_put, and_iff_left ht,
        or_iff_right fun h => ht (congrArg Prod.fst h)]
    rw [hlookup, layer_replace_of_ne _ es ht, layer_settings]

/-- The layers of the sources that are kept stay, and the others are empty. -/
theorem layer_settings_keep (l : Layers) (sources : Source → Bool) (source : Source) :
    (l.keep sources).settings.layer source
      = if sources source then l.settings.layer source else [] := by
  have hlookup : (l.keep sources).made.lookup source
      = if sources source then l.made.lookup source else none := by
    ext es
    rw [lookup_eq_some_iff, keep, List.mem_filter, ← lookup_eq_some_iff]
    by_cases hs : sources source = true
    · rw [if_pos hs, and_iff_left hs]
    · rw [if_neg hs]
      simp [hs]
  rw [layer_settings, hlookup, layer_settings]
  split <;> rfl

/-- The settings that layers stand for change like the layers. -/
theorem settings_step (l : Layers) (c : Change) : (l.step c).settings = l.settings.step c := by
  rw [step]
  cases happly : c.apply l.settings with
  | error e =>
    -- a change that fails leaves both as they are
    rw [Settings.step, happly]
  | ok s =>
    have hs : l.settings.step c = s := by rw [Settings.step, happly]
    -- where one layer is written, all others are what they were
    have hput : ∀ source, (∀ t, t ≠ source → ¬c.Writes t (l.settings.layer t) (s.layer t)) →
        (l.put source (s.layer source)).settings = s := by
      intro source hother
      rw [settings_put]
      apply eq_of_layer
      intro t
      by_cases ht : t = source
      · rw [ht, layer_replace_self]
      · rw [layer_replace_of_ne _ _ ht]
        rcases layer_step l.settings c t with hsame | hwrites
        · rw [← hsame, hs]
        · rw [hs] at hwrites
          exact absurd hwrites (hother t ht)
    rw [hs]
    cases c with
    | set key value source => exact hput source fun t ht h => ht h.1.symm
    | load document source => exact hput source fun t ht h => ht h.1.symm
    | loadFile R d file source => exact hput source fun t ht h => ht h.1.symm
    | clear source =>
      cases happly
      apply eq_of_layer
      intro t
      rw [layer_settings_keep, layer_clear]
      by_cases ht : t = source
      · subst ht
        by_cases hd : t = .defaults
        · simp [hd]
        · simp [hd]
      · simp [ht]
    | clearAll =>
      cases happly
      apply eq_of_layer
      intro t
      rw [layer_settings_keep, layer_clearAll]
      simp

/-- **Changes do to the layers what they do to the settings.** -/
theorem settings_after (l : Layers) (changes : List Change) :
    (l.after changes).settings = l.settings.after changes := by
  induction changes generalizing l with
  | nil => rfl
  | cons c cs ih =>
    rw [after, List.foldl_cons, Settings.after, List.foldl_cons, ← settings_step]
    exact ih (l.step c)

end Layers

end Settings

end IgnoreRules
