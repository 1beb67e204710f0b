/-
# Sources are independent

A change reads and writes the layer of the source that it addresses, and nothing else: no mapping
is shared by two layers, as a change that is given one takes it as it is at that time.  So changes
that address different sources can be made in either order, and what comes of any number of changes
depends on which of them each source was sent, one after the other, and not on how those of
different sources follow each other.

* `apply_eq_map` : a change does the same wherever the layer of its source is the same;
* `step_comm_of_apart` : changes to different sources can be made in either order;
* `filter_addresses` : a layer goes through the changes that address its source, and these come out
  as if there were no others;
* `sources_are_independent` : nobody can tell how changes to different sources were mixed.
-/
import IgnoreRules.Proofs.LayerOrder

namespace IgnoreRules.Settings

variable {s t : Settings} {source : Source} {c : Change}

/-! ## Sources that changes address -/

/-- The change addresses the source.  Emptying all layers addresses every source. -/
def Change.addresses (source : Source) : Change → Bool
  | .set _ _ addressed | .load _ addressed | .loadFile _ _ _ addressed | .clear addressed =>
      addressed = source
  | .clearAll => true

/-- What comes of a change: it succeeds, or it fails in some way. -/
def Change.outcome (s : Settings) (c : Change) : Except Failure Unit := (c.apply s).map fun _ => ()

/-- No source is addressed by both changes. -/
def Change.Apart (a b : Change) : Prop :=
  ∀ source, ¬(a.addresses source = true ∧ b.addresses source = true)

/-- A change addresses some source. -/
theorem Change.exists_addresses (c : Change) : ∃ source, c.addresses source = true := by
  cases c with
  | set key value source => exact ⟨source, decide_eq_true rfl⟩
  | load document source => exact ⟨source, decide_eq_true rfl⟩
  | loadFile R d file source => exact ⟨source, decide_eq_true rfl⟩
  | clear source => exact ⟨source, decide_eq_true rfl⟩
  | clearAll => exact ⟨.defaults, rfl⟩

theorem Change.Apart.symm {a b : Change} (h : a.Apart b) : b.Apart a :=
  fun source hba => h source hba.symm

/-- Where a change does not address a source, its layer stays. -/
theorem layer_step_of_not_addresses (s : Settings) (h : c.addresses source = false) :
    (s.step c).layer source = s.layer source := by
  rcases layer_step s c source with hsame | hwrites
  · exact hsame
  · cases c with
    | set key value addressed => exact absurd hwrites.1 (of_decide_eq_false h)
    | load document addressed => exact absurd hwrites.1 (of_decide_eq_false h)
    | loadFile R d file addressed => exact absurd hwrites.1 (of_decide_eq_false h)
    | clear addressed =>
      rw [step, Change.apply, layer_clear, if_neg]
      rintro ⟨rfl, -⟩
      exact of_decide_eq_false h rfl
    | clearAll => cases h

/-! ## Changes of one layer -/

/-- Loading a document is replacing the layer of its source, whatever the other layers are. -/
theorem load_eq_map (s t : Settings) (document : Value) (source : Source) (origin : String) :
    s.load document source origin
      = (t.load document source origin).map fun u => s.replace source (u.layer source) := by
  rw [load, load]
  cases entriesOf document origin with
  | error e => rfl
  | ok es =>
    dsimp only
    rw [Except.map, layer_replace_self]

/-- So is loading a file. -/
theorem loadFile_eq_map (s t : Settings) (R : Document.Reader) (d : Directory) (file : String)
    (source : Source) :
    s.loadFile R d file source
      = (t.loadFile R d file source).map fun u => s.replace source (u.layer source) := by
  rw [loadFile, loadFile]
  cases documentOf R d file with
  | error e => rfl
  | ok document => exact load_eq_map s t document source file

/-- Writing a value depends on the layer of its source only. -/
theorem set_eq_map (h : s.layer source = t.layer source) (key : String) (value : Value) :
    s.set key value source
      = (t.set key value source).map fun u => s.replace source (u.layer source) := by
  rw [set, set, h]
  split
  · rw [Except.map, layer_replace_self]
  · rfl

/-- Emptying a layer depends on this layer only. -/
theorem clear_eq_replace (h : s.layer source = t.layer source) :
    s.clear source = s.replace source ((t.clear source).layer source) := by
  apply eq_of_layer
  intro other
  by_cases ho : other = source
  · rw [ho, layer_replace_self, layer_clear, layer_clear, h]
  · rw [layer_replace_of_ne s _ ho, layer_clear, if_neg fun hc => ho hc.1]

/-- **A change does the same wherever the layer of its source is the same**: it puts the same layer
there, or fails in the same way. -/
theorem apply_eq_map (hc : c.addresses source = true) (hall : c ≠ .clearAll)
    (h : s.layer source = t.layer source) :
    c.apply s = (c.apply t).map fun u => s.replace source (u.layer source) := by
  cases c with
  | set key value addressed =>
    obtain rfl := of_decide_eq_true hc
    exact set_eq_map h key value
  | load document addressed =>
    obtain rfl := of_decide_eq_true hc
    exact load_eq_map s t document addressed addressed.label
  | loadFile R d file addressed =>
    obtain rfl := of_decide_eq_true hc
    exact loadFile_eq_map s t R d file addressed
  | clear addressed =>
    obtain rfl := of_decide_eq_true hc
    exact congrArg Except.ok (clear_eq_replace h)
  | clearAll => exact absurd rfl hall

/-- So the change comes out in the same way, and leaves the same layer behind. -/
theorem agree_of_layer_eq (hc : c.addresses source = true) (h : s.layer source = t.layer source) :
    c.outcome s = c.outcome t ∧ (s.step c).layer source = (t.step c).layer source := by
  by_cases hall : c = .clearAll
  · subst hall
    refine ⟨rfl, ?_⟩
    rw [step, step, Change.apply, Change.apply, layer_clearAll, layer_clearAll, h]
  · rw [Change.outcome, Change.outcome, step, step, apply_eq_map hc hall h]
    cases c.apply t with
    | error e => exact ⟨rfl, h⟩
    | ok u => exact ⟨rfl, layer_replace_self s source _⟩

/-! ## Two changes -/

/-- A change that addresses another source does not matter to this one. -/
theorem outcome_step_of_apart {a b : Change} (h : a.Apart b) (s : Settings) :
    a.outcome (s.step b) = a.outcome s := by
  obtain ⟨source, ha⟩ := a.exists_addresses
  have hb : b.addresses source = false := Bool.eq_false_iff.2 fun hb => h source ⟨ha, hb⟩
  exact (agree_of_layer_eq ha (layer_step_of_not_addresses s hb)).1

/-- **Changes that address different sources can be made in either order.** -/
theorem step_comm_of_apart {a b : Change} (h : a.Apart b) (s : Settings) :
    (s.step a).step b = (s.step b).step a := by
  apply eq_of_layer
  intro source
  cases ha : a.addresses source with
  | true =>
    have hb : b.addresses source = false := Bool.eq_false_iff.2 fun hb => h source ⟨ha, hb⟩
    have hs : (s.step b).layer source = s.layer source := layer_step_of_not_addresses s hb
    rw [layer_step_of_not_addresses _ hb, (agree_of_layer_eq ha hs).2]
  | false =>
    rw [layer_step_of_not_addresses _ ha]
    have hs : (s.step a).layer source = s.layer source := layer_step_of_not_addresses s ha
    cases hb : b.addresses source with
    | true => exact (agree_of_layer_eq hb hs).2
    | false => rw [layer_step_of_not_addresses _ hb, layer_step_of_not_addresses _ hb, hs]

/-! ## Many changes -/

/-- Changes with what comes of them, when they are made one after the other. -/
def answers (s : Settings) : List Change → List (Change × Except Failure Unit)
  | [] => []
  | c :: cs => (c, c.outcome s) :: answers (s.step c) cs

@[simp] theorem after_nil (s : Settings) : s.after [] = s := rfl

@[simp] theorem after_cons (s : Settings) (c : Change) (cs : List Change) :
    s.after (c :: cs) = (s.step c).after cs := rfl

/-- **A layer goes through the changes that address its source**, and these come out as if there
were no others. -/
theorem filter_addresses (h : s.layer source = t.layer source) (changes : List Change) :
    (s.after changes).layer source
        = (t.after (changes.filter (·.addresses source))).layer source ∧
      (s.answers changes).filter (·.1.addresses source)
        = t.answers (changes.filter (·.addresses source)) := by
  induction changes generalizing s t with
  | nil => exact ⟨h, rfl⟩
  | cons c cs ih =>
    cases hc : c.addresses source with
    | true =>
      obtain ⟨houtcome, hlayer⟩ := agree_of_layer_eq hc h
      obtain ⟨hafter, hanswers⟩ := ih hlayer
      rw [List.filter_cons, if_pos hc, after_cons, after_cons]
      refine ⟨hafter, ?_⟩
      simp only [answers, List.filter_cons, hc, if_true, houtcome, hanswers]
    | false =>
      obtain ⟨hafter, hanswers⟩ := ih ((layer_step_of_not_addresses s hc).trans h)
      rw [List.filter_cons, if_neg (by simp [hc]), after_cons]
      refine ⟨hafter, ?_⟩
      simp only [answers, List.filter_cons, hc, Bool.false_eq_true, if_false, hanswers]

/-- Each source was sent the same changes, one after the other. -/
def SentAlike (as bs : List Change) : Prop :=
  ∀ source, as.filter (·.addresses source) = bs.filter (·.addresses source)

/-- Settings are the same behind changes that each source was sent alike. -/
theorem after_eq_of_sentAlike {as bs : List Change} (h : SentAlike as bs) (s : Settings) :
    s.after as = s.after bs := by
  apply eq_of_layer
  intro source
  rw [(filter_addresses rfl as).1, h source, ← (filter_addresses rfl bs).1]

/-- And the changes that address a source come out alike. -/
theorem answers_eq_of_sentAlike {as bs : List Change} (h : SentAlike as bs) (s : Settings)
    (source : Source) : (s.answers as).filter (·.1.addresses source)
      = (s.answers bs).filter (·.1.addresses source) := by
  rw [(filter_addresses rfl as).2, h source, ← (filter_addresses rfl bs).2]

/-- **Sources are independent.**  Two changes that address different sources come out in the same
way in either order, and leave the same settings behind.  So all that matters is which changes each
source was sent, one after the other: these come out alike however they are mixed with others, each
key has the same value behind them for every default, and the one mapping of all layers is the same,
with its keys in the same order.  This also holds of layers that are made when they are first
written, although these may have been made in another order. -/
theorem sources_are_independent :
    (∀ (s : Settings) (a b : Change), a.Apart b →
      a.outcome (s.step b) = a.outcome s ∧ b.outcome (s.step a) = b.outcome s ∧
      (s.step a).step b = (s.step b).step a) ∧
    (∀ (s : Settings) (as bs : List Change), SentAlike as bs →
      (∀ source, (s.answers as).filter (·.1.addresses source)
        = (s.answers bs).filter (·.1.addresses source)) ∧
      (∀ key default, (s.after as).get key default = (s.after bs).get key default) ∧
      (s.after as).all = (s.after bs).all) ∧
    ∀ (l : Layers) (as bs : List Change), SentAlike as bs →
      (∀ key default, (l.after as).get key default = (l.after bs).get key default) ∧
      (l.after as).all = (l.after bs).all := by
  refine ⟨?_, ?_, ?_⟩
  · intro s a b h
    exact ⟨outcome_step_of_apart h s, outcome_step_of_apart h.symm s, step_comm_of_apart h s⟩
  · intro s as bs h
    refine ⟨answers_eq_of_sentAlike h s, ?_, ?_⟩
    · intro key default
      rw [after_eq_of_sentAlike h s]
    · rw [after_eq_of_sentAlike h s]
  · intro l as bs h
    have hsettings : (l.after as).settings = (l.after bs).settings := by
      rw [Layers.settings_after, Layers.settings_after, after_eq_of_sentAlike h]
    refine ⟨?_, ?_⟩
    · intro key default
      rw [Layers.get_eq, Layers.get_eq, hsettings]
    · rw [Layers.all_eq, Layers.all_eq, hsettings]

/-- Layers are made in the order in which they are first written. -/
example : (Layers.initial.after [.set "a.c" (.text "x") .environment,
    .set "a.b" (.int 1) .user]).made.map Prod.fst = [.defaults, .environment, .user] := rfl

end IgnoreRules.Settings
