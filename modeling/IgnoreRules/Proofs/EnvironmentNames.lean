/-
# Names in the environment

The names of variables are read as paths, and their texts as scalars, which are written one after
the other into one mapping.  That works out unless a path goes on from the end of one that was
written before, where a scalar stands in its way.  The mapping that is made is plain, so if it is no
configuration, it has a fault that can be put into words, and this is reported.

* `Entries.Made` : what stands in a mapping that scalars were written into;
* `Entries.exists_putAll_iff` : all of them can be written exactly if no path goes on from an
  earlier one;
* `Environment.load_eq_error` : the two ways in which loading can fail;
* `failures_are_reported_unless_names_collide` : which of them a run reports as an error of the
  configuration.
-/
import IgnoreRules.CommandLine.Run
import IgnoreRules.Proofs.ArgumentReading
import IgnoreRules.Proofs.ChangesInPlace
import IgnoreRules.Proofs.PlainValues
import IgnoreRules.Proofs.WrittenValues

namespace IgnoreRules

namespace Entries

variable {es fs : Entries} {v : Value} {path : List String} {writes : List (List String × Value)}

/-! ## Scalars written one after the other -/

/-- Writes values one after the other, each at the end of its path. -/
def putAll (es : Entries) (writes : List (List String × Value)) : Except Blocked Entries :=
  writes.foldlM (fun es w => es.putPath w.2 w.1) es

theorem putAll_cons (es : Entries) (w : List String × Value) :
    es.putAll (w :: writes) = es.putPath w.2 w.1 >>= fun fs => fs.putAll writes := rfl

/-- Values that are written first are there when the others are written. -/
theorem putAll_append (es : Entries) (before after : List (List String × Value)) :
    es.putAll (before ++ after) = es.putAll before >>= fun fs => fs.putAll after :=
  List.foldlM_append

theorem putAll_concat (es : Entries) (w : List String × Value) :
    es.putAll (writes ++ [w]) = es.putAll writes >>= fun fs => fs.putPath w.2 w.1 := by
  rw [putAll_append]
  congr 1
  funext fs
  rw [putAll_cons]
  exact bind_pure _

/-- What is in the way along a path stays in the way when a scalar is written, or the scalar is. -/
theorem blocks_putPath {s : Scalar} {other : List String}
    (hput : es.putPath (.scalar s) path = .ok fs) (hne : path ≠ [])
    (h : (Value.mapping es).Blocks other) : (Value.mapping fs).Blocks other := by
  have hself := walk_putPath_self hput hne
  obtain ⟨front, w, hfront, hwalk, hkind⟩ := h
  rcases walk_putPath_cases hput hne front with ⟨rfl, -⟩ | ⟨hgoes, -⟩ | ⟨hgoes, -⟩ | ⟨-, hsame⟩
  · exact ⟨front, _, hfront, hself, Value.kind_scalar_ne s⟩
  · -- then it was in the way of the scalar, too, which was not written
    have hway := (goesOn_iff_prefix_dropLast.1 hgoes).2
    exact absurd ⟨front, w, hway, hwalk, hkind⟩ (not_blocks_of_putPath hput)
  · exact ⟨path, _, hgoes.1.trans hfront, hself, Value.kind_scalar_ne s⟩
  · exact ⟨front, w, hfront, hsame.trans hwalk, hkind⟩

/-- A scalar is written, at the end of a path with at least one part. -/
def IsLeaf (w : List String × Value) : Prop := w.1 ≠ [] ∧ ∃ s, w.2 = .scalar s

/-- What stands in the mapping that writing scalars into an empty one makes. -/
structure Made (writes : List (List String × Value)) (es : Entries) : Prop where
  /-- A value that is no mapping was written where it stands. -/
  written : ∀ path v, (Value.mapping es).walk path = some v → v.kind ≠ .mapping → (path, v) ∈ writes
  /-- A mapping stands where a written path goes on. -/
  goesOn : ∀ path sub, (Value.mapping es).walk path = some (.mapping sub) →
    path = [] ∨ ∃ q ∈ writes.map Prod.fst, GoesOn path q
  /-- On the way along a written path, or at its end, stands a value that is no mapping. -/
  blocks : ∀ path ∈ writes.map Prod.fst, (Value.mapping es).Blocks path

theorem Made.nil : Made [] [] := by
  refine ⟨?_, ?_, ?_⟩
  · intro path v hwalk hkind
    rcases path with _ | ⟨p, path⟩
    · cases hwalk
      exact absurd rfl hkind
    · cases hwalk
  · intro path sub hwalk
    rcases path with _ | ⟨p, path⟩
    · exact Or.inl rfl
    · cases hwalk
  · intro path hpath
    cases hpath

/-- **One scalar more**, written after the others. -/
theorem Made.put {s : Scalar} (h : Made writes es) (hne : path ≠ [])
    (hput : es.putPath (.scalar s) path = .ok fs) : Made (writes ++ [(path, .scalar s)]) fs := by
  have hcases := walk_putPath_cases hput hne
  have hnew : (path, Value.scalar s) ∈ writes ++ [(path, .scalar s)] :=
    List.mem_append_right _ List.mem_cons_self
  have hpaths : (writes ++ [(path, Value.scalar s)]).map Prod.fst
      = writes.map Prod.fst ++ [path] := List.map_append
  refine ⟨?_, ?_, ?_⟩
  · intro other v hwalk hkind
    rcases hcases other with ⟨rfl, hself⟩ | ⟨-, sub, hsub⟩ | ⟨-, hnone⟩ | ⟨-, hsame⟩
    · rw [hwalk] at hself
      cases hself
      exact hnew
    · rw [hwalk] at hsub
      cases hsub
      exact absurd rfl hkind
    · rw [hwalk] at hnone
      cases hnone
    · rw [hsame] at hwalk
      exact List.mem_append_left _ (h.written other v hwalk hkind)
  · intro other sub hwalk
    rw [hpaths]
    rcases hcases other with ⟨rfl, hself⟩ | ⟨hgoes, -⟩ | ⟨-, hnone⟩ | ⟨-, hsame⟩
    · rw [hwalk] at hself
      cases hself
    · exact Or.inr ⟨path, List.mem_append_right _ List.mem_cons_self, hgoes⟩
    · rw [hwalk] at hnone
      cases hnone
    · rw [hsame] at hwalk
      refine (h.goesOn other sub hwalk).imp_right ?_
      rintro ⟨q, hq, hgoes⟩
      exact ⟨q, List.mem_append_left _ hq, hgoes⟩
  · intro other hother
    rw [hpaths, List.mem_append, List.mem_singleton] at hother
    rcases hother with hold | rfl
    · exact blocks_putPath hput hne (h.blocks other hold)
    · exact ⟨other, _, List.prefix_refl other, walk_putPath_self hput hne, Value.kind_scalar_ne s⟩

/-- **Writing values makes entries from them**, by induction on the values. -/
theorem Made.of_putAll (hleaf : ∀ w ∈ writes, IsLeaf w) (h : putAll [] writes = .ok es) :
    Made writes es := by
  induction writes using List.reverseRecOn generalizing es with
  | nil =>
    cases h
    exact Made.nil
  | append_singleton writes w ih =>
    rw [putAll_concat] at h
    obtain ⟨before, hbefore, hput⟩ := bind_eq_ok_iff.1 h
    have hmade := ih (fun w hw => hleaf w (List.mem_append_left _ hw)) hbefore
    obtain ⟨path, v⟩ := w
    obtain ⟨hne, s, rfl⟩ := hleaf (path, v) (List.mem_append_right _ List.mem_cons_self)
    exact hmade.put hne hput

/-- A value can be written unless its path goes on from a written one. -/
theorem Made.exists_putPath_iff (h : Made writes es) (hne : path ≠ []) (v : Value) :
    (∃ fs, es.putPath v path = .ok fs) ↔ ∀ p ∈ writes.map Prod.fst, ¬GoesOn p path := by
  constructor
  · rintro ⟨fs, hput⟩ p hp hgoes
    obtain ⟨front, w, hfront, hwalk, hkind⟩ := h.blocks p hp
    have hway := (goesOn_iff_prefix_dropLast.1 hgoes).2
    exact not_blocks_of_putPath hput ⟨front, w, hfront.trans hway, hwalk, hkind⟩
  · intro hnone
    cases hput : es.putPath v path with
    | ok fs => exact ⟨fs, rfl⟩
    | error cause =>
      obtain ⟨front, w, hfront, hwalk, hkind⟩ := (putPath_eq_error_iff v).1 ⟨cause, hput⟩
      have hmem := List.mem_map_of_mem (f := Prod.fst) (h.written front w hwalk hkind)
      exact absurd (goesOn_iff_prefix_dropLast.2 ⟨hne, hfront⟩) (hnone front hmem)

/-- **All scalars can be written exactly if no path goes on from an earlier one.** -/
theorem exists_putAll_iff (hleaf : ∀ w ∈ writes, IsLeaf w) :
    (∃ es, putAll [] writes = .ok es) ↔
      (writes.map Prod.fst).Pairwise fun p q => ¬GoesOn p q := by
  induction writes using List.reverseRecOn with
  | nil => exact iff_of_true ⟨[], rfl⟩ List.Pairwise.nil
  | append_singleton writes w ih =>
    have hbefore := fun w hw => hleaf w (List.mem_append_left _ hw)
    obtain ⟨hne, -⟩ := hleaf w (List.mem_append_right _ List.mem_cons_self)
    rw [putAll_concat, List.map_append, List.pairwise_append, ← ih hbefore]
    constructor
    · rintro ⟨fs, h⟩
      obtain ⟨es, hes, hput⟩ := bind_eq_ok_iff.1 h
      refine ⟨⟨es, hes⟩, List.pairwise_singleton _ _, ?_⟩
      intro p hp q hq
      rw [List.mem_singleton.1 hq]
      exact ((Made.of_putAll hbefore hes).exists_putPath_iff hne w.2).1 ⟨fs, hput⟩ p hp
    · rintro ⟨⟨es, hes⟩, -, hlast⟩
      obtain ⟨fs, hput⟩ := ((Made.of_putAll hbefore hes).exists_putPath_iff hne w.2).2
        fun p hp => hlast p hp w.1 (List.mem_singleton.2 rfl)
      exact ⟨fs, bind_eq_ok_iff.2 ⟨es, hes, hput⟩⟩

/-- Plain values keep a mapping plain. -/
theorem Plain.putAll (h : es.Plain) (hplain : ∀ w ∈ writes, w.2.Plain)
    (hput : es.putAll writes = .ok fs) : fs.Plain := by
  induction writes generalizing es with
  | nil =>
    cases hput
    exact h
  | cons w writes ih =>
    obtain ⟨hw, hrest⟩ := List.forall_mem_cons.1 hplain
    rw [putAll_cons] at hput
    obtain ⟨between, hfirst, hput⟩ := bind_eq_ok_iff.1 hput
    exact ih (h.putPath hw hfirst) hrest hput

end Entries

/-! ## Variables -/

namespace Environment

variable {s : Settings} {vars : List (String × String)} {e : Settings.Failure}

/-- The paths of the variables that are settings, in the order of these. -/
def paths (vars : List (String × String)) : List (List String) :=
  vars.filterMap fun e => path? e.1

/-- What the variables write, in their order. -/
def writes (vars : List (String × String)) : List (List String × Value) :=
  vars.filterMap fun e => (path? e.1).map fun path => (path, valueOf e.2)

/-- No path goes on from one that comes before it. -/
def Unobstructed (vars : List (String × String)) : Prop :=
  (paths vars).Pairwise fun p q => ¬GoesOn p q

/-- A variable writes under its path. -/
theorem map_fst_writes (vars : List (String × String)) :
    (writes vars).map Prod.fst = paths vars := by
  unfold writes paths
  rw [List.map_filterMap]
  congr 1
  funext e
  cases path? e.1 <;> rfl

/-- Collecting variables is writing their values one after the other. -/
theorem collect_eq_putAll (es : Entries) (vars : List (String × String)) :
    collect es vars = es.putAll (writes vars) := by
  induction vars generalizing es with
  | nil => rfl
  | cons e vars ih =>
    obtain ⟨name, text⟩ := e
    unfold collect writes
    cases hpath : path? name with
    | none =>
      rw [List.filterMap_cons_none (by rw [hpath]; rfl)]
      exact ih es
    | some path =>
      rw [List.filterMap_cons_some (by rw [hpath]; rfl), Entries.putAll_cons]
      dsimp only
      cases es.putPath (valueOf text) path with
      | error cause => rfl
      | ok fs => exact ih fs

/-- A variable stands for a scalar, and that can be shown. -/
theorem exists_scalar_valueOf (text : String) :
    ∃ s, valueOf text = .scalar s ∧ s.isShowable = true := by
  unfold valueOf
  dsimp only
  split
  · exact ⟨_, rfl, rfl⟩
  · split
    · exact ⟨_, rfl, rfl⟩
    · split
      · next n hn => exact ⟨_, rfl, Number.isShowable_of_int? hn⟩
      · split <;> exact ⟨_, rfl, rfl⟩

theorem path?_ne_nil {name : String} {path : List String} (h : path? name = some path) :
    path ≠ [] := by
  unfold path? at h
  dsimp only at h
  split at h
  · cases h
    exact Text.split_ne_nil _ _
  · cases h

/-- What a variable writes is a plain value and no mapping. -/
theorem of_mem_writes {w : List String × Value} (h : w ∈ writes vars) :
    Entries.IsLeaf w ∧ w.2.Plain := by
  obtain ⟨e, -, he⟩ := List.mem_filterMap.1 h
  obtain ⟨path, hpath, rfl⟩ := Option.map_eq_some_iff.1 he
  obtain ⟨s, hs, hshow⟩ := exists_scalar_valueOf e.2
  refine ⟨⟨path?_ne_nil hpath, s, hs⟩, ?_⟩
  show (valueOf e.2).Plain
  rw [hs]
  exact hshow

/-- Variables can be collected exactly if no path obstructs another. -/
theorem exists_collect_iff :
    (∃ es, collect [] vars = .ok es) ↔ Unobstructed vars := by
  rw [collect_eq_putAll, Entries.exists_putAll_iff fun w hw => (of_mem_writes hw).1, map_fst_writes]
  rfl

theorem made_of_collect {es : Entries} (h : collect [] vars = .ok es) :
    Entries.Made (writes vars) es := by
  rw [collect_eq_putAll] at h
  exact Entries.Made.of_putAll (fun w hw => (of_mem_writes hw).1) h

theorem plain_of_collect {es : Entries} (h : collect [] vars = .ok es) : es.Plain := by
  rw [collect_eq_putAll] at h
  exact Entries.plain_nil.putAll (fun w hw => (of_mem_writes hw).2) h

/-- **All that can become of settings that are not loaded**: a value is in the way of a path, or
all values were written, and the mapping of them is no configuration. -/
theorem load_eq_error (h : load s vars = .error e) :
    (¬Unobstructed vars ∧ ∃ cause, e = .blocked cause) ∨
      Unobstructed vars ∧ ∃ f, e = .invalid "environment" f ∧ f.isWordable = true := by
  unfold load at h
  split at h
  · next cause hcollect =>
    cases h
    refine Or.inl ⟨?_, cause, rfl⟩
    rw [← exists_collect_iff, hcollect]
    rintro ⟨es, hes⟩
    cases hes
  · cases h
  · next es _ hcollect =>
    have hplain : (Value.mapping [(.text Key.root, .mapping es)]).Plain :=
      ⟨⟨_, rfl⟩, plain_of_collect hcollect, trivial⟩
    refine Or.inr ⟨exists_collect_iff.1 ⟨es, hcollect⟩, ?_⟩
    rcases Settings.load_eq_error h with ⟨f, hf, rfl⟩ | ⟨f, hf, rfl⟩
    · exact ⟨f, rfl, Schema.isWordable_of_check hf hplain.isShowable⟩
    · exact absurd (Schema.check_eq_keys_iff.1 ⟨f, hf⟩) hplain.not_unlistable

/-- Variables that obstruct each other are not loaded. -/
theorem exists_load_eq_error (h : ¬Unobstructed vars) (s : Settings) :
    ∃ cause, load s vars = .error (.blocked cause) := by
  unfold load
  cases hcollect : collect [] vars with
  | error cause => exact ⟨cause, rfl⟩
  | ok es => exact absurd (exists_collect_iff.1 ⟨es, hcollect⟩) h

/-- Where no path is in the way of another one, only an error of the configuration keeps settings
from being loaded. -/
theorem load_of_unobstructed (h : Unobstructed vars) (s : Settings) :
    (∃ t, load s vars = .ok t) ∨
      ∃ e, load s vars = .error e ∧ e.name = "ConfigError" ∧ e.code? = some 1 := by
  cases hload : load s vars with
  | ok t => exact Or.inl ⟨t, rfl⟩
  | error e =>
    rcases load_eq_error hload with ⟨hblocked, -⟩ | ⟨-, f, rfl, hword⟩
    · exact absurd h hblocked
    · exact Or.inr ⟨_, rfl, Settings.Failure.reported_of_isWordable hword⟩

end Environment

/-! ## Runs -/

namespace CommandLine

variable {u : Surroundings} {args : List String} {a : Arguments} {e : Settings.Failure}

/-- A run whose environment cannot be loaded ends with that failure. -/
theorem run_of_start_eq_error (hargs : Arguments.parse args = .ok (.test a)) {s : Session}
    (h : Environment.start u.reader s.directory none u.vars = .error e) :
    run u args s =
      if e.code?.isSome then (⟨.failure, "", unlines ["Error: " ++ e.message]⟩, s)
      else abandon u (problem e.name e.message) "" s := by
  have hsettings : settingsOf u a s.directory = .error e := by
    unfold settingsOf
    rw [h]
    rfl
  unfold run
  rw [hargs]
  dsimp only
  rw [hsettings]

/-- **Failures to load the environment are reported, unless names collide.**  If no path goes on
from one that comes before it, then the settings of the environment are loaded, or else this fails
with an error of the configuration, and a run that tests paths reports that and does nothing more.
If some path does, then loading fails with another error, because of the value in its way, and a run
is given up as after a problem that nobody expected. -/
theorem failures_are_reported_unless_names_collide (u : Surroundings) (s : Session)
    (hargs : Arguments.parse args = .ok (.test a)) :
    (Environment.Unobstructed u.vars →
      (∃ t, Environment.start u.reader s.directory none u.vars = .ok t) ∨
      ∃ e, Environment.start u.reader s.directory none u.vars = .error e ∧
        e.name = "ConfigError" ∧ e.code? = some 1 ∧
        run u args s = (⟨.failure, "", unlines ["Error: " ++ e.message]⟩, s)) ∧
    (¬Environment.Unobstructed u.vars →
      ∃ e, Environment.start u.reader s.directory none u.vars = .error e ∧
        (e.name = "TypeError" ∨ e.name = "AttributeError") ∧ e.code? = none ∧
        run u args s = abandon u (problem e.name e.message) "" s) := by
  constructor
  · intro hfree
    rcases Environment.load_of_unobstructed hfree .initial with ⟨t, ht⟩ | ⟨e, he, hname, hcode⟩
    · exact Or.inl ⟨t, ht⟩
    · refine Or.inr ⟨e, he, hname, hcode, ?_⟩
      rw [run_of_start_eq_error hargs he, hcode]
      rfl
  · intro hblocked
    obtain ⟨cause, hload⟩ := Environment.exists_load_eq_error hblocked .initial
    have hstart : Environment.start u.reader s.directory none u.vars = .error (.blocked cause) :=
      hload
    refine ⟨_, hstart, ?_, rfl, ?_⟩
    · cases cause with
      | last kind => exact Or.inl rfl
      | within kind => exact Or.inr rfl
    · rw [run_of_start_eq_error hargs hstart]
      rfl

/-! ## A section and one of its fields -/

/-- A text for a whole section, and then a value for one of its fields. -/
def sectionAndField : List (String × String) :=
  [("IGNOREMATCH_CACHE", "on"), ("IGNOREMATCH_CACHE__ENABLED", "true")]

/-- The text is in the way of the value, or it takes the place of the mapping that was made for
it. -/
theorem collect_sectionAndField : Environment.collect [] sectionAndField = .error (.last .text) ∧
    Environment.collect [] sectionAndField.reverse = .ok [(.text Key.cache, .text "on")] := by
  have hsection : Environment.path? "IGNOREMATCH_CACHE" = some ["cache"] := by decide +kernel
  have hfield : Environment.path? "IGNOREMATCH_CACHE__ENABLED" = some ["cache", "enabled"] := by
    decide +kernel
  have hon : Environment.valueOf "on" = .text "on" := by rfl
  have htrue : Environment.valueOf "true" = .bool true := by rfl
  have hwrites : Environment.writes sectionAndField
      = [(["cache"], .text "on"), (["cache", "enabled"], .bool true)] := by
    simp [Environment.writes, sectionAndField, hsection, hfield, hon, htrue]
  have hreverse : Environment.writes sectionAndField.reverse
      = (Environment.writes sectionAndField).reverse := by
    unfold Environment.writes
    exact List.filterMap_reverse
  rw [Environment.collect_eq_putAll, Environment.collect_eq_putAll, hreverse, hwrites]
  exact ⟨rfl, rfl⟩

/-- Behind the value for the field the text is reported.  In front of it, it is in the way, and the
run is given up. -/
theorem failures_are_reported_unless_names_collide_of_section :
    let surroundings (vars : List (String × String)) : Surroundings :=
      ⟨vars, ⟨"now", "trace", "lost"⟩, Document.plain⟩
    let s : Session := ⟨{ base := ["home"], nodes := [] }, .empty⟩
    let report := "Cache configuration must be a dictionary"
    Arguments.parse ["a", "a"] = .ok (.test (chosen [] "a" ["a"])) ∧
      Environment.Unobstructed sectionAndField.reverse ∧
      run (surroundings sectionAndField.reverse) ["a", "a"] s = (⟨.failure, "",
        unlines ["Error: Invalid configuration in environment: " ++ report]⟩, s) ∧
      ¬Environment.Unobstructed sectionAndField ∧
      ∃ name text, (name = "TypeError" ∨ name = "AttributeError") ∧
        run (surroundings sectionAndField) ["a", "a"] s
          = abandon (surroundings sectionAndField) (problem name text) "" s := by
  intro surroundings s report
  obtain ⟨hblocked, hdone⟩ := collect_sectionAndField
  have hoperands : ∀ w ∈ ["a", "a"], Word.IsOperand w := by
    intro w hw
    obtain rfl : w = "a" := by simpa using hw
    exact Word.isOperand_of_head (by decide)
  have hargs : Arguments.parse (commandLine [] "a" ["a"]) = .ok (.test (chosen [] "a" ["a"])) :=
    parse_commandLine (by simp) hoperands (by simp)
  have hfree : Environment.Unobstructed sectionAndField.reverse :=
    Environment.exists_collect_iff.1 ⟨_, hdone⟩
  have hcollide : ¬Environment.Unobstructed sectionAndField := by
    rw [← Environment.exists_collect_iff, hblocked]
    rintro ⟨es, hes⟩
    cases hes
  have hstart : Environment.start Document.plain s.directory none sectionAndField.reverse
      = .error (.invalid "environment" (.notMapping .cache)) := by
    show Environment.load .initial sectionAndField.reverse = _
    unfold Environment.load
    rw [hdone]
    rfl
  refine ⟨hargs, hfree, ?_, hcollide, ?_⟩
  · rcases (failures_are_reported_unless_names_collide (surroundings sectionAndField.reverse) s
      hargs).1 hfree with ⟨t, ht⟩ | ⟨e, he, -, -, hrun⟩
    · cases hstart.symm.trans ht
    · cases hstart.symm.trans he
      exact hrun
  · obtain ⟨e, -, hname, -, hrun⟩ :=
      (failures_are_reported_unless_names_collide (surroundings sectionAndField) s hargs).2 hcollide
    exact ⟨e.name, e.message, hname, hrun⟩

/-- **A value behind the text for its section is not reported.**  Loading the environment fails, and
not with an error of the configuration.  The other way round it does. -/
theorem field_behind_text_is_not_reported :
    let failure : Settings.Failure := .blocked (.last .text)
    let reported : Settings.Failure := .invalid "environment" (.notMapping .cache)
    let d : Directory := { base := ["home"], nodes := [] }
    Environment.start Document.plain d none sectionAndField = .error failure ∧
      failure.name = "TypeError" ∧ failure.code? = none ∧
      Environment.start Document.plain d none sectionAndField.reverse = .error reported ∧
      reported.name = "ConfigError" ∧ reported.code? = some 1 := by
  intro failure reported d
  obtain ⟨hblocked, hdone⟩ := collect_sectionAndField
  refine ⟨?_, rfl, rfl, ?_, rfl, rfl⟩
  · show Environment.load .initial sectionAndField = _
    unfold Environment.load
    rw [hblocked]
  · show Environment.load .initial sectionAndField.reverse = _
    unfold Environment.load
    rw [hdone]
    rfl

end CommandLine

end IgnoreRules
