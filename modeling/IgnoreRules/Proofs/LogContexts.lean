/-
# Contexts of log records

The context of a record is made of layers of named values: the frames, the outermost first, then
what the call gives, then what is said of a problem.  Each layer is laid over those before it.

* `Log.Named` : named values, as a layer gives them;
* `Log.layered` : the context that some layers make;
* `Log.get?_layered` : a name has the value of the innermost layer that holds it;
* `Log.hasNames_layered` : the names stand in the order in which they first appear;
* `Log.isShowable_overlay` : a context can be shown if the layers that it is made of can.
-/
import IgnoreRules.Log.Record
import IgnoreRules.Proofs.FileSteps
import IgnoreRules.Proofs.MergedMappings
import IgnoreRules.Proofs.Recency
import Mathlib.Data.List.Basic

namespace IgnoreRules.Log

/-! ## Named values -/

/-- Named values, as a call or a frame gives them.  No name comes twice. -/
structure Named where
  values : List (String × Value)
  nodup : (values.map Prod.fst).Nodup

namespace Named

/-- The names, in their order. -/
def names (n : Named) : List String := n.values.map Prod.fst

/-- The value of a name. -/
def value? (n : Named) (name : String) : Option Value := n.values.lookup name

/-- The same values as entries of a mapping. -/
def entries (n : Named) : Entries := n.values.map fun e => (.text e.1, e.2)

@[simp] theorem get?_entries (n : Named) (name : String) :
    n.entries.get? (.text name) = n.value? name := by
  rw [entries, value?]
  induction n.values with
  | nil => rfl
  | cons e es ih =>
    rw [List.map_cons, Entries.get?_cons, Scalar.same_text, ih]
    by_cases he : e.1 = name
    · rw [List.lookup_cons, he, if_pos (decide_eq_true rfl), beq_self_eq_true]
    · rw [List.lookup_cons, beq_eq_false_iff_ne.2 (Ne.symm he),
        if_neg (by rw [decide_eq_true_eq]; exact he)]

end Named

/-- Entries whose keys are all texts, each of them once, are named values. -/
theorem exists_named {es : Entries} {names : List String} (hnames : names.Nodup)
    (h : es.map Prod.fst = names.map .text) : ∃ n : Named, es = n.entries ∧ n.names = names := by
  have hvalues : ∃ values : List (String × Value), es = values.map (fun e => (.text e.1, e.2)) ∧
      values.map Prod.fst = names := by
    clear hnames
    induction names generalizing es with
    | nil => exact ⟨[], List.map_eq_nil_iff.1 h, rfl⟩
    | cons name names ih =>
      cases es with
      | nil => cases h
      | cons e es =>
        obtain ⟨hkey, hrest⟩ := List.cons.inj h
        obtain ⟨values, rfl, rfl⟩ := ih hrest
        exact ⟨(name, e.2) :: values, by rw [List.map_cons, ← hkey], rfl⟩
  obtain ⟨values, rfl, rfl⟩ := hvalues
  exact ⟨⟨values, hnames⟩, rfl, rfl⟩

/-! ## One layer over another -/

/-- The keys are the given texts, each at the place where it comes first. -/
def HasNames (es : Entries) (names : List String) : Prop :=
  es.map Prod.fst = names.eraseDups.map .text

/-- A name that is there keeps its place, and a new one comes last. -/
theorem HasNames.put {es : Entries} {names : List String} (h : HasNames es names) (name : String)
    (v : Value) : HasNames (es.put (.text name) v) (names ++ [name]) := by
  have hany : (es.any fun e => e.1.same (.text name)) = true ↔ name ∈ names := by
    have hinjective : Function.Injective Scalar.text := fun _ _ heq => Scalar.text.inj heq
    rw [← List.mem_eraseDups, ← List.mem_map_of_injective hinjective, ← h, List.any_eq_true,
      List.mem_map]
    simp only [Scalar.same_text_iff]
  rw [HasNames, Entries.map_fst_put, Recency.eraseDups_concat, h]
  by_cases hname : name ∈ names
  · rw [if_pos (hany.2 hname), if_pos hname]
  · rw [if_neg (mt hany.1 hname), if_neg hname, List.map_append]
    rfl

/-- A layer adds its names to those that are there. -/
theorem HasNames.overlay {es : Entries} {names : List String} (h : HasNames es names)
    (n : Named) : HasNames (overlay es n.entries) (names ++ n.names) := by
  rw [Log.overlay, Named.entries, Named.names, List.foldl_map]
  induction n.values generalizing es names with
  | nil =>
    rw [List.map_nil, List.append_nil]
    exact h
  | cons e values ih =>
    rw [List.foldl_cons, List.map_cons, List.append_cons]
    exact ih (h.put e.1 e.2)

/-- **What an upper layer names it decides**; the other names keep their values. -/
theorem get?_overlay (es : Entries) (n : Named) (name : String) :
    (overlay es n.entries).get? (.text name) = (n.value? name).or (es.get? (.text name)) := by
  obtain ⟨values, hvalues⟩ := n
  rw [overlay, Named.entries, Named.value?, List.foldl_map]
  induction values generalizing es with
  | nil => rfl
  | cons e values ih =>
    obtain ⟨k, v⟩ := e
    rw [List.map_cons, List.nodup_cons] at hvalues
    rw [List.foldl_cons, ih _ hvalues.2, Entries.get?_put_text, List.lookup_cons]
    by_cases hk : k = name
    · -- no later value has this name
      have hlater : values.lookup name = none := by
        rw [List.lookup_eq_none_iff]
        intro e he
        rw [bne_iff_ne]
        rintro rfl
        exact hvalues.1 (List.mem_map.2 ⟨e, he, hk.symm⟩)
      rw [hlater, if_pos (congrArg Scalar.text hk), hk, beq_self_eq_true]
      rfl
    · rw [if_neg fun h => hk (Scalar.text.inj h), beq_eq_false_iff_ne.2 (Ne.symm hk)]

/-! ## Layers -/

/-- The context that layers make, the innermost of which comes first. -/
def layered : List Named → Entries
  | [] => []
  | n :: outer => overlay (layered outer) n.entries

/-- **A name has the value of the innermost layer that holds it.** -/
theorem get?_layered (layers : List Named) (name : String) :
    (layered layers).get? (.text name) = layers.findSome? fun n => n.value? name := by
  induction layers with
  | nil => rfl
  | cons n outer ih =>
    rw [layered, get?_overlay, ih, List.findSome?_cons]
    cases n.value? name <;> rfl

/-- **The names stand in the order in which they first appear**, from the outermost layer on. -/
theorem hasNames_layered (layers : List Named) :
    HasNames (layered layers) (layers.reverse.flatMap Named.names) := by
  induction layers with
  | nil => rfl
  | cons n outer ih =>
    rw [List.reverse_cons, List.flatMap_append, List.flatMap_singleton]
    exact ih.overlay n

/-- A context is made of named values, which are known by their names and their order. -/
theorem exists_named_layered (layers : List Named) : ∃ n : Named, layered layers = n.entries ∧
    n.names = (layers.reverse.flatMap Named.names).eraseDups ∧
    ∀ name, n.value? name = layers.findSome? fun n => n.value? name := by
  obtain ⟨n, hentries, hnames⟩ := exists_named (Recency.nodup_eraseDups _) (hasNames_layered layers)
  refine ⟨n, hentries, hnames, ?_⟩
  intro name
  rw [← Named.get?_entries, ← hentries, get?_layered]

/-! ## What can be shown -/

theorem showableEntries_put {es : Entries} {key : Scalar} {v : Value}
    (hes : Value.showableEntries es = true) (hkey : key.isShowable = true)
    (hv : v.isShowable = true) : Value.showableEntries (es.put key v) = true := by
  induction es with
  | nil => rw [Entries.put_nil, Value.showableEntries, hkey, hv]; rfl
  | cons e es ih =>
    obtain ⟨k, w⟩ := e
    rw [Value.showableEntries, Bool.and_eq_true, Bool.and_eq_true] at hes
    obtain ⟨⟨hk, hw⟩, hrest⟩ := hes
    rw [Entries.put_cons]
    split
    · rw [Value.showableEntries, hk, hv, hrest]; rfl
    · rw [Value.showableEntries, hk, hw, ih hrest]; rfl

/-- One context laid over another can be shown if both can. -/
theorem isShowable_overlay {outer inner : Entries} (houter : (Value.mapping outer).isShowable = true)
    (hinner : (Value.mapping inner).isShowable = true) :
    (Value.mapping (overlay outer inner)).isShowable = true := by
  rw [Value.isShowable] at houter hinner ⊢
  rw [overlay]
  induction inner generalizing outer with
  | nil => exact houter
  | cons e inner ih =>
    rw [Value.showableEntries, Bool.and_eq_true, Bool.and_eq_true] at hinner
    obtain ⟨⟨hkey, hv⟩, hrest⟩ := hinner
    exact ih (showableEntries_put houter hkey hv) hrest

/-- Named values can be shown if each of them can. -/
theorem isShowable_entries (n : Named) :
    (Value.mapping n.entries).isShowable = n.values.all fun e => e.2.isShowable := by
  rw [Value.isShowable, Named.entries]
  induction n.values with
  | nil => rfl
  | cons e es ih => rw [List.map_cons, Value.showableEntries, ih, List.all_cons]; rfl

/-- A value that stands under a name is found under it. -/
theorem value?_of_mem {n : Named} {e : String × Value} (h : e ∈ n.values) :
    n.value? e.1 = some e.2 := by
  obtain ⟨values, hvalues⟩ := n
  rw [Named.value?]
  induction values with
  | nil => cases h
  | cons f fs ih =>
    rw [List.map_cons, List.nodup_cons] at hvalues
    rcases List.mem_cons.1 h with rfl | h
    · exact List.lookup_cons_self
    · have hne : (e.1 == f.1) = false :=
        beq_eq_false_iff_ne.2 fun heq => hvalues.1 (heq ▸ List.mem_map_of_mem h)
      rw [List.lookup_cons, hne]
      exact ih hvalues.2 h

/-- **The values of a context can be shown** if those of its layers can. -/
theorem all_isShowable {context : Named} {layers : List Named}
    (hvalues : ∀ name, context.value? name = layers.findSome? fun n => n.value? name)
    (h : ∀ n ∈ layers, ∀ e ∈ n.values, e.2.isShowable = true) :
    (context.values.all fun e => e.2.isShowable) = true := by
  refine List.all_eq_true.2 fun e he => ?_
  have hfound := (hvalues e.1).symm.trans (value?_of_mem he)
  obtain ⟨n, hn, hvalue⟩ := List.exists_of_findSome?_eq_some hfound
  exact h n hn _ (mem_of_lookup hvalue)

end IgnoreRules.Log
