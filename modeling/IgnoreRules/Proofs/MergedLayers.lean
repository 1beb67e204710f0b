/-
# All layers as one mapping

Values are looked up from the source of highest precedence down, and all layers make one mapping,
each laid over those below it.  These are two ways to the same values, and the one mapping is a
configuration as long as every layer is.

* `Settings.merged` : the mapping that some of the layers make;
* `Settings.find?_merged` : what that mapping says of a path, and what looking it up finds;
* `looking_up_agrees_with_all` : a value of the one mapping is the one that is found, and where
  nothing is found the one mapping says nothing;
* `merging_keeps_validity` : the one mapping of loaded layers is accepted.
-/
import IgnoreRules.Proofs.SettingsHistory
import Mathlib.Data.List.Induction

namespace IgnoreRules.Settings

variable {s : Settings} {sources : List Source} {path : List String} {v : Value}

/-! ## Layers on top of each other -/

/-- The mapping that the layers of some sources make, each laid over those before it. -/
def merged (s : Settings) (sources : List Source) : Entries :=
  sources.foldl (fun lower source => Entries.merge lower (s.layer source)) []

/-- All settings are the layers of all sources, merged. -/
theorem all_eq_merged (s : Settings) : s.all = s.merged Source.ascending := rfl

/-- One more source is laid over those that were merged. -/
theorem merged_concat (s : Settings) (sources : List Source) (source : Source) :
    s.merged (sources ++ [source]) = Entries.merge (s.merged sources) (s.layer source) := by
  rw [merged, List.foldl_append]
  rfl

/-- Sources that are asked first hide those that are asked later. -/
theorem find?_append (s : Settings) (left right : List Source) (path : List String) :
    s.find? (left ++ right) path = (s.find? left path).or (s.find? right path) :=
  List.findSome?_append

/-- The first source hides all others. -/
theorem find?_cons (s : Settings) (source : Source) (sources : List Source) (path : List String) :
    s.find? (source :: sources) path
      = (valueIn? (s.layer source) path).or (s.find? sources path) := by
  unfold find?
  rw [List.findSome?_cons]
  cases valueIn? (s.layer source) path <;> rfl

/-- The source that is laid over all others is asked first. -/
theorem find?_reverse_concat (s : Settings) (sources : List Source) (source : Source)
    (path : List String) :
    s.find? (sources ++ [source]).reverse path
      = (valueIn? (s.layer source) path).or (s.find? sources.reverse path) := by
  rw [List.reverse_append, List.reverse_singleton, List.singleton_append, find?_cons]

/-- The value that a layer has for a path, unless it is null. -/
theorem valueIn?_of_walk {es : Entries} (hw : (Value.mapping es).walk path = some v)
    (hnull : v ≠ .null) : valueIn? es path = some v := by
  rw [valueIn?, hw, Option.filter_eq_some_iff]
  exact ⟨rfl, by rw [Value.isNull_eq_false hnull]; rfl⟩

theorem valueIn?_of_walk_eq_none {es : Entries} (hw : (Value.mapping es).walk path = none) :
    valueIn? es path = none := by
  rw [valueIn?, hw]
  rfl

/-- **What the one mapping says of a path is what is found**, unless it is null or a mapping; a
mapping may be made up of several layers, and then one of these is found. -/
theorem find?_merged (h : s.WellFormed)
    (hpath : path ≠ []) (hw : (Value.mapping (s.merged sources)).walk path = some v)
    (hnull : v ≠ .null) :
    ∃ w, s.find? sources.reverse path = some w ∧ (v.kind ≠ .mapping → w = v) := by
  induction sources using List.reverseRecOn with
  | nil =>
    -- an empty mapping leads nowhere
    obtain ⟨p, ps, rfl⟩ := List.exists_cons_of_ne_nil hpath
    cases hw
  | append_singleton sources source ih =>
    rw [merged_concat, ← Value.over_mapping] at hw
    rw [find?_reverse_concat]
    have hlayer : (Value.mapping (s.layer source)).WellFormed := h source
    rcases Value.walk_over hlayer (some (.mapping (s.merged sources))) path with
      hupper | ⟨hnone, o, ho, hlower⟩ | ⟨o, bs, es, ho, hlow, hup, hboth⟩
    · -- the last layer decides
      rw [hupper] at hw
      rw [valueIn?_of_walk hw hnull]
      exact ⟨v, rfl, fun _ => rfl⟩
    · -- the last layer is silent
      cases ho
      rw [hlower] at hw
      rw [valueIn?_of_walk_eq_none hnone, Option.none_or]
      exact ih hw
    · rw [hboth] at hw
      cases hw
      rw [valueIn?_of_walk hup (by simp)]
      exact ⟨_, rfl, fun hkind => absurd rfl hkind⟩

/-! ## Looking up and merging -/

/-- A key has at least one part. -/
theorem parts_ne_nil (key : String) : parts key ≠ [] := Text.split_ne_nil "." key

/-- What is said of a path in the one mapping of all layers agrees with what is found for it. -/
def Agrees (s : Settings) (key : String) : Prop :=
  (∀ v, (Value.mapping s.all).walk (parts key) = some v → v ≠ .null → v.kind ≠ .mapping →
    ∀ default, s.get key default = v) ∧
  (s.get? key = none → (Value.mapping s.all).walk (parts key) = none ∨
    (Value.mapping s.all).walk (parts key) = some .null)

/-- Looking up agrees with the one mapping in all settings whose mappings hold no key twice, however
they came about. -/
theorem WellFormed.agrees (h : s.WellFormed) (key : String) : s.Agrees key := by
  have hfound : ∀ {v}, (Value.mapping s.all).walk (parts key) = some v → v ≠ .null →
      ∃ w, s.get? key = some w ∧ (v.kind ≠ .mapping → w = v) := by
    intro v hv hnull
    exact find?_merged h (parts_ne_nil key) hv hnull
  constructor
  · intro v hv hnull hmapping default
    obtain ⟨w, hw, heq⟩ := hfound hv hnull
    obtain rfl := heq hmapping
    exact get_of_get? hw default
  · intro hnone
    cases hv : (Value.mapping s.all).walk (parts key) with
    | none => exact Or.inl rfl
    | some v =>
      right
      by_contra hne
      have hnull : v ≠ .null := fun h => hne (congrArg some h)
      obtain ⟨w, hw, -⟩ := hfound hv hnull
      rw [hnone] at hw
      cases hw

/-- **Looking up agrees with the one mapping of all layers**, in settings that a program starts with
and that are changed in any way, whatever reads their files.  Where the path of a key leads to a
value in the one mapping that is neither null nor a mapping, that value is found, whatever the
default.  Where nothing is found, and so the default is taken, the path leads nowhere or to null. -/
theorem looking_up_agrees_with_all {R : Document.Reader} {d : Directory} {file : Option String}
    {vars : List (String × String)} (hstart : Environment.start R d file vars = .ok s)
    {changes : List Change} (hchanges : ∀ c ∈ changes, c.WellFormed) (key : String) :
    let now := s.after changes
    let all := Value.mapping now.all
    (∀ v, all.walk (parts key) = some v → v ≠ .null → v.kind ≠ .mapping →
      ∀ default, now.get key default = v) ∧
    (now.get? key = none → all.walk (parts key) = none ∨ all.walk (parts key) = some .null) :=
  ((Environment.wellFormed_start hstart).after hchanges).agrees key

/-- A text in the environment stands in the way of what the user says, and a mapping of the running
program lies over it.  What the user says is still found, but not in the one mapping. -/
theorem looking_up_agrees_with_all_of_blocked_path :
    let changes : List Change := [
      .set "a.b" (.int 1) .user,
      .set "a" (.text "stop") .environment,
      .set "a.b.c" (.int 2) .environment,
      .set "a.c" (.mapping [(.text "d", .null), (.text "e", .bool true)]) .runtime,
      .load (.list []) .commandLine]
    let now := Settings.initial.after changes
    let all := Value.mapping now.all
    all.walk (parts "a.c.e") = some (.bool true) ∧
      (∀ default, now.get "a.c.e" default = .bool true) ∧
      now.get? "a.c.d" = none ∧
      (all.walk (parts "a.c.d") = none ∨ all.walk (parts "a.c.d") = some .null) ∧
      now.get? "a.b" = some (.int 1) ∧ all.walk (parts "a.b") = none := by
  intro changes now all
  have hstart : Environment.start Document.plain { base := ["home"], nodes := [] } none []
      = .ok .initial := rfl
  have hchanges : ∀ c ∈ changes, c.WellFormed := by
    simp [changes, Change.WellFormed, Value.WellFormed, Value.AllWellFormed, Entries.WellFormed]
  have hwalk : all.walk (parts "a.c.e") = some (.bool true) := rfl
  have hnone : now.get? "a.c.d" = none := rfl
  refine ⟨hwalk, ?_, hnone, ?_, rfl, rfl⟩
  · exact (looking_up_agrees_with_all hstart hchanges "a.c.e").1 _ hwalk (by simp) (by decide)
  · exact (looking_up_agrees_with_all hstart hchanges "a.c.d").2 hnone

/-! ## Validity -/

/-- Valid layers make a configuration, as many of them as there are. -/
theorem check_merged (hwell : s.WellFormed) (hvalid : s.Valid) (sources : List Source) :
    Schema.check (.mapping (s.merged sources)) = .ok () := by
  induction sources using List.reverseRecOn with
  | nil => rfl
  | append_singleton sources source ih =>
    rw [merged_concat]
    exact Schema.check_merge (hwell source) ih (hvalid source)

/-- **Merging keeps validity.**  A configuration that is accepted, laid over one that is accepted,
gives one that is accepted.  So the one mapping of all layers is accepted, in settings that a
program starts with and whose layers are then replaced by documents, those of files among them, or
emptied, whether or not this succeeds, and whatever reads the files. -/
theorem merging_keeps_validity :
    (∀ lower upper : Entries, upper.WellFormed → Schema.check (.mapping lower) = .ok () →
      Schema.check (.mapping upper) = .ok () →
      Schema.check (.mapping (lower.merge upper)) = .ok ()) ∧
    ∀ (R : Document.Reader) (d : Directory) (file : Option String)
      (vars : List (String × String)) (s : Settings), Environment.start R d file vars = .ok s →
      ∀ changes : List Change, (∀ c ∈ changes, c.isSet = false ∧ c.WellFormed) →
        Schema.check (.mapping (s.after changes).all) = .ok () := by
  constructor
  · intro lower upper hwell hlower hupper
    exact Schema.check_merge hwell hlower hupper
  · intro R d file vars s hstart changes hchanges
    have hwell := (Environment.wellFormed_start hstart).after fun c hc => (hchanges c hc).2
    have hvalid := (Environment.valid_start hstart).after fun c hc => (hchanges c hc).1
    rw [all_eq_merged]
    exact check_merged hwell hvalid Source.ascending

/-- An empty section under a partial one, and settings with layers from everywhere, where two
documents are refused. -/
theorem merging_keeps_validity_of_partial_sections :
    let d : Directory := {
      base := ["home"]
      nodes := [(["home", "one.json"], .file
        "\x7b\"ignorematch\": \x7b\"logging\": \x7b\"file\": \"run.log\"\x7d\x7d\x7d".toUTF8)] }
    let vars := [("IGNOREMATCH_CACHE__ENABLED", "no")]
    let lower : Entries := [(.text Key.root, .null), (.text "other", .list [.int 3])]
    let upper : Entries := [(.text Key.root,
      .mapping [(.text Key.cache, .mapping [(.text Key.maxEntries, .int 5)])])]
    let changes : List Change := [
      .load (.mapping lower) .commandLine,
      .load (.mapping [(.text Key.root, .int 1)]) .runtime,
      .loadFile Document.plain d "two.json" .defaults,
      .loadFile Document.plain d "one.json" .runtime,
      .clear .user]
    Schema.check (.mapping (lower.merge upper)) = .ok () ∧
      ∃ s, Environment.start Document.plain d (some "one.json") vars = .ok s ∧
        Schema.check (.mapping (s.after changes).all) = .ok () := by
  intro d vars lower upper changes
  have hupper : upper.WellFormed := by
    simp [upper, Entries.WellFormed]
  have hchanges : ∀ c ∈ changes, c.isSet = false ∧ c.WellFormed := by
    simp [changes, lower, Change.isSet, Change.WellFormed, Value.WellFormed, Value.AllWellFormed,
      Entries.WellFormed, Key.root]
  refine ⟨merging_keeps_validity.1 lower upper hupper rfl rfl, ?_⟩
  have hok : (Environment.start Document.plain d (some "one.json") vars).isOk = true := by
    decide +kernel
  obtain ⟨s, hstart⟩ := exists_eq_ok_of_isOk hok
  exact ⟨s, hstart, merging_keeps_validity.2 _ d _ _ s hstart changes hchanges⟩

end IgnoreRules.Settings
