/-
# Environments in another order

Where no path goes on from another one and no two are the same, every scalar stays where it is
written, so the mapping that is made of an environment is known from what is written, whatever comes
first.  In another order the keys are made in another order, and that is all: the mappings are
alike, both are configurations or neither is, and settings that were loaded answer alike.

* `Entries.Made.walk_eq_scalar_iff`, `Entries.Made.exists_mapping_iff` : where paths lead, in terms
  of what was written;
* `Environment.collect_alike` : the mappings of environments in different orders are alike;
* `order_of_variables_does_not_matter` : neither for whether settings are loaded nor for their
  values.
-/
import IgnoreRules.Proofs.AlikeValues
import IgnoreRules.Proofs.EnvironmentNames
import Mathlib.Data.List.Pairwise

namespace IgnoreRules

namespace Entries

variable {es fs : Entries} {path : List String} {writes writes' : List (List String × Value)}

/-! ## Paths that are apart -/

/-- What is written at the end of a path is all that is written along it. -/
theorem eq_of_prefix (hapart : (writes.map Prod.fst).Pairwise Apart) {w w' : List String × Value}
    (hw : w ∈ writes) (hw' : w' ∈ writes) (hfront : w.1 <+: w'.1) : w = w' := by
  have hsymm : Std.Symm fun a b : List String × Value => Apart a.1 b.1 := ⟨fun _ _ => Apart.symm⟩
  by_contra hne
  exact ((List.pairwise_map.1 hapart).forall hw hw' hne).1 hfront

/-- **Every scalar stands where it was written.** -/
theorem Made.walk_eq_scalar_iff (h : Made writes es)
    (hapart : (writes.map Prod.fst).Pairwise Apart) {s : Scalar} :
    (Value.mapping es).walk path = some (.scalar s) ↔ (path, .scalar s) ∈ writes := by
  constructor
  · intro hwalk
    exact h.written path _ hwalk (Value.kind_scalar_ne s)
  · intro hmem
    obtain ⟨front, w, hfront, hwalk, hkind⟩ := h.blocks path (List.mem_map_of_mem hmem)
    have heq := eq_of_prefix hapart (h.written front w hwalk hkind) hmem hfront
    cases heq
    exact hwalk

/-- **Mappings stand where written paths go on**, and at the very beginning. -/
theorem Made.exists_mapping_iff (h : Made writes es) (hleaf : ∀ w ∈ writes, IsLeaf w)
    (hapart : (writes.map Prod.fst).Pairwise Apart) :
    (∃ sub, (Value.mapping es).walk path = some (.mapping sub)) ↔
      path = [] ∨ ∃ q ∈ writes.map Prod.fst, GoesOn path q := by
  constructor
  · rintro ⟨sub, hsub⟩
    exact h.goesOn path sub hsub
  · rintro (rfl | ⟨q, hq, hgoes⟩)
    · exact ⟨es, Value.walk_nil _⟩
    · obtain ⟨w, hw, rfl⟩ := List.mem_map.1 hq
      obtain ⟨-, s, hs⟩ := hleaf w hw
      have hwalk : (Value.mapping es).walk w.1 = some (.scalar s) := by
        rw [h.walk_eq_scalar_iff hapart, ← hs]
        exact hw
      exact Value.exists_mapping_of_goesOn hwalk hgoes

/-- **What was made of the same scalars, in whatever order, has the same paths.** -/
theorem Made.sameWalks (h : Made writes es) (h' : Made writes' fs) (hperm : writes.Perm writes')
    (hleaf : ∀ w ∈ writes, IsLeaf w) (hapart : (writes.map Prod.fst).Pairwise Apart) :
    (Value.mapping es).SameWalks (.mapping fs) := by
  have hpaths := hperm.map Prod.fst
  have hapart' := (hpaths.pairwise_iff Apart.symm).1 hapart
  have hleaf' : ∀ w ∈ writes', IsLeaf w := fun w hw => hleaf w (hperm.mem_iff.2 hw)
  constructor
  · intro path s
    rw [h.walk_eq_scalar_iff hapart, h'.walk_eq_scalar_iff hapart', hperm.mem_iff]
  · intro path
    rw [h.exists_mapping_iff hleaf hapart, h'.exists_mapping_iff hleaf' hapart']
    simp only [hpaths.mem_iff]

end Entries

namespace Environment

variable {vars vars' : List (String × String)} {s : Settings}

/-! ## The same variables -/

/-- In another order, too, all paths are apart. -/
theorem apart_of_perm (hperm : vars.Perm vars') (h : (paths vars).Pairwise Apart) :
    (paths vars').Pairwise Apart := by
  have hpaths : (paths vars).Perm (paths vars') := hperm.filterMap _
  exact (hpaths.pairwise_iff Apart.symm).1 h

theorem unobstructed_of_apart (h : (paths vars).Pairwise Apart) : Unobstructed vars :=
  h.imp fun hab hgoes => hab.1 hgoes.1

/-- **The mappings that are made of the same variables are alike.** -/
theorem collect_alike {es fs : Entries} (hperm : vars.Perm vars')
    (hapart : (paths vars).Pairwise Apart) (hes : collect [] vars = .ok es)
    (hfs : collect [] vars' = .ok fs) : (Value.mapping es).Alike (.mapping fs) := by
  have hwrites : (writes vars).Perm (writes vars') := hperm.filterMap _
  rw [← map_fst_writes] at hapart
  have hwalks := (made_of_collect hes).sameWalks (made_of_collect hfs) hwrites
    (fun w hw => (of_mem_writes hw).1) hapart
  exact Value.alike_of_sameWalks (plain_of_collect hes) (plain_of_collect hfs)
    (wellFormed_of_collect Entries.wellFormed_nil hes)
    (wellFormed_of_collect Entries.wellFormed_nil hfs) hwalks

/-- **Settings that are loaded** have the mapping of the variables under the root key, if there are
any variables and this is a configuration. -/
theorem load_eq_ok_iff {es : Entries} {t : Settings} (hes : collect [] vars = .ok es) :
    load s vars = .ok t ↔ es = [] ∧ t = s ∨
      es ≠ [] ∧ Schema.IsConfiguration (.mapping [(.text Key.root, .mapping es)]) ∧
        t = s.replace .environment [(.text Key.root, .mapping es)] := by
  unfold load
  rw [hes]
  cases es with
  | nil =>
    have hsame : Except.ok s = (Except.ok t : Except Settings.Failure Settings) ↔ t = s := by
      rw [Except.ok.injEq, eq_comm]
    simpa using hsame
  | cons e es =>
    dsimp only
    rw [Settings.load_eq_ok_iff, Schema.check_eq_ok_iff_isConfiguration]
    constructor
    · rintro ⟨document, hdocument, hconf, rfl⟩
      cases hdocument
      exact Or.inr ⟨List.cons_ne_nil e es, hconf, rfl⟩
    · rintro (⟨hnil, -⟩ | ⟨-, hconf, rfl⟩)
      · cases hnil
      · exact ⟨_, rfl, hconf, rfl⟩

/-- In another order the variables load settings that are alike. -/
theorem exists_load_alike {t : Settings} (hperm : vars.Perm vars')
    (hapart : (paths vars).Pairwise Apart) (h : load s vars = .ok t) :
    ∃ t', load s vars' = .ok t' ∧ t.Alike t' := by
  have hapart' := apart_of_perm hperm hapart
  obtain ⟨es, hes⟩ := exists_collect_iff.2 (unobstructed_of_apart hapart)
  obtain ⟨fs, hfs⟩ := exists_collect_iff.2 (unobstructed_of_apart hapart')
  have halike := collect_alike hperm hapart hes hfs
  have hnil : es = [] ↔ fs = [] := by
    rw [← List.length_eq_zero_iff, ← List.length_eq_zero_iff, ← List.length_map Prod.fst,
      halike.perm_keys.length_eq, List.length_map]
  rcases (load_eq_ok_iff hes).1 h with ⟨hes', rfl⟩ | ⟨hne, hconf, rfl⟩
  · exact ⟨t, (load_eq_ok_iff hfs).2 (Or.inl ⟨hnil.1 hes', rfl⟩), fun source => .refl _⟩
  · have hne' : fs ≠ [] := mt hnil.2 hne
    have hdocument := halike.singleton Key.root
    have hconf' := (Schema.isConfiguration_iff_of_alike hdocument).1 hconf
    refine ⟨_, (load_eq_ok_iff hfs).2 (Or.inr ⟨hne', hconf', rfl⟩), ?_⟩
    intro source
    by_cases hsource : source = .environment
    · rw [hsource, Settings.layer_replace_self, Settings.layer_replace_self]
      exact hdocument
    · rw [Settings.layer_replace_of_ne s _ hsource, Settings.layer_replace_of_ne s _ hsource]
      exact .refl _

/-- **The order of variables does not matter.**  Let no path be the same as another one or go on as
it.  Then in every order of the variables settings fail to be loaded, with an error of the
configuration, or in every order they are loaded, and then every key has values that are alike, for
every default. -/
theorem order_of_variables_does_not_matter (s : Settings) (hperm : vars.Perm vars')
    (hapart : (paths vars).Pairwise Apart) :
    (∃ e e', load s vars = .error e ∧ load s vars' = .error e' ∧
      e.name = "ConfigError" ∧ e'.name = "ConfigError") ∨
    ∃ t t', load s vars = .ok t ∧ load s vars' = .ok t' ∧
      ∀ key default, (t.get key default).Alike (t'.get key default) := by
  have hapart' := apart_of_perm hperm hapart
  rcases load_of_unobstructed (unobstructed_of_apart hapart) s with ⟨t, ht⟩ | ⟨e, he, hname, -⟩
  · obtain ⟨t', ht', halike⟩ := exists_load_alike hperm hapart ht
    exact Or.inr ⟨t, t', ht, ht', halike.get⟩
  · rcases load_of_unobstructed (unobstructed_of_apart hapart') s with
      ⟨t', ht'⟩ | ⟨e', he', hname', -⟩
    · -- then the first order would load settings, too
      obtain ⟨t, ht, -⟩ := exists_load_alike hperm.symm hapart' ht'
      rw [he] at ht
      cases ht
    · exact Or.inl ⟨e, e', he, he', hname, hname'⟩

/-- Both sections, made in either order, with fields on both sides of a variable that is no
setting. -/
theorem order_of_variables_does_not_matter_of_two_sections :
    let vars := [("IGNOREMATCH_CACHE__ENABLED", "no"), ("IGNOREMATCH_LOGGING__LEVEL", "debug"),
      ("HOME", "/home"), ("IGNOREMATCH_CACHE__MAX_ENTRIES", "64")]
    vars.Perm vars.reverse ∧ (paths vars).Pairwise Apart ∧
      ∃ t t', load .initial vars = .ok t ∧ load .initial vars.reverse = .ok t' ∧
        ∀ key default, (t.get key default).Alike (t'.get key default) := by
  intro vars
  have hperm : vars.Perm vars.reverse := (List.reverse_perm vars).symm
  have hpaths : paths vars
      = [["cache", "enabled"], ["logging", "level"], ["cache", "max_entries"]] := by
    decide +kernel
  have hapart : (paths vars).Pairwise Apart := by
    rw [hpaths]
    unfold Apart
    decide
  have hok : (load .initial vars).isOk = true := by decide +kernel
  obtain ⟨t, ht⟩ := exists_eq_ok_of_isOk hok
  refine ⟨hperm, hapart, ?_⟩
  rcases order_of_variables_does_not_matter .initial hperm hapart with ⟨e, -, he, -⟩ | hboth
  · rw [ht] at he
    cases he
  · exact hboth

end Environment

end IgnoreRules
