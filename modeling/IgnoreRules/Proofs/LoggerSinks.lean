/-
# Where the records of a logger go

The handlers of a name lead to sinks.  What is delivered under the name goes to these sinks and
nowhere else, and so no other files are changed.

* `Registry.sinksOf` : the sinks of a name, in the order of its handlers;
* `Registry.withoutFiles`, `Registry.attachNew` : the two steps in which a logger gets a log file;
* `Registry.sinksOf_sharedLogger` : what asking for a shared logger does to the sinks;
* `kept_perform` : what is delivered to a log file changes this file and its backups.
-/
import IgnoreRules.Proofs.LogRotation
import IgnoreRules.Proofs.LogChannels

namespace IgnoreRules.Log

namespace Registry

variable {g : Registry} {name other : String} {h : Nat}

/-- The sink of a handler. -/
def sinkOf (g : Registry) (handler : Nat) : Sink := g.sinks[handler]?.getD .kept

/-- The sinks of a name, in the order of its handlers. -/
def sinksOf (g : Registry) (name : String) : List Sink := (g.channel name).handlers.map g.sinkOf

theorem writesFile_eq (g : Registry) (h : Nat) : g.writesFile h = (g.sinkOf h).isFile := by
  rw [writesFile, sinkOf]
  cases g.sinks[h]? <;> rfl

/-! ## Changes of one channel -/

/-- A logger has the sinks of the handlers that it was given. -/
theorem sinksOf_setChannel_self (g : Registry) (name : String) (c : Channel) :
    (g.setChannel name c).sinksOf name = c.handlers.map g.sinkOf := by
  rw [sinksOf, channel_setChannel_self]
  rfl

/-- Giving handlers to one logger leaves the others theirs. -/
theorem sinksOf_setChannel_of_ne (c : Channel) (hne : channelName name ≠ channelName other) :
    (g.setChannel name c).sinksOf other = g.sinksOf other := by
  rw [sinksOf, channel_setChannel, if_neg hne]
  rfl

/-- The registry in which a name has another level. -/
def withLevel (g : Registry) (name : String) (level : Int) : Registry :=
  g.setChannel name { g.channel name with level := level }

theorem sinksOf_withLevel (g : Registry) (name : String) (level : Int) (other : String) :
    (g.withLevel name level).sinksOf other = g.sinksOf other := by
  by_cases hname : channelName name = channelName other
  · rw [withLevel, sinksOf, channel_setChannel, if_pos hname, sinksOf, ← channel_congr hname]
    rfl
  · exact sinksOf_setChannel_of_ne _ hname

theorem Bounded.withLevel (hg : g.Bounded) (name : String) (level : Int) :
    (g.withLevel name level).Bounded := by
  refine hg.setChannel ?_ name
  exact hg name

/-- Behind the handlers that are left there are the sinks that are no files. -/
theorem sinksOf_detachFiles (g : Registry) (name : String) :
    (g.detachFiles name).sinksOf name = (g.sinksOf name).filter fun k => !k.isFile := by
  have hfiles : (fun k => !k.isFile) ∘ g.sinkOf = fun h => !g.writesFile h := by
    funext h
    rw [Function.comp_apply, writesFile_eq]
  rw [detachFiles, sinksOf_setChannel_self, sinksOf, List.filter_map, hfiles]

theorem sinksOf_detachFiles_of_ne (hne : channelName name ≠ channelName other) :
    (g.detachFiles name).sinksOf other = g.sinksOf other :=
  sinksOf_setChannel_of_ne _ hne

theorem Bounded.detachFiles (hg : g.Bounded) (name : String) : (g.detachFiles name).Bounded :=
  hg.setChannel (fun h hh => hg name h (List.mem_filter.1 hh).1) name

/-- The registry in which a name has another level and no handler that writes to a file. -/
def withoutFiles (g : Registry) (name : String) (level : Int) : Registry :=
  (g.withLevel name level).detachFiles name

/-- A logger whose files are dropped keeps its other sinks. -/
theorem sinksOf_withoutFiles (g : Registry) (name : String) (level : Int) :
    (g.withoutFiles name level).sinksOf name = (g.sinksOf name).filter fun k => !k.isFile := by
  rw [withoutFiles, sinksOf_detachFiles, sinksOf_withLevel]

/-- Setting up one logger leaves the sinks of the others. -/
theorem sinksOf_withoutFiles_of_ne (level : Int) (hne : channelName name ≠ channelName other) :
    (g.withoutFiles name level).sinksOf other = g.sinksOf other := by
  rw [withoutFiles, sinksOf_detachFiles_of_ne hne, sinksOf_withLevel]

theorem Bounded.withoutFiles (hg : g.Bounded) (name : String) (level : Int) :
    (g.withoutFiles name level).Bounded :=
  (hg.withLevel name level).detachFiles name

/-! ## New handlers -/

/-- A new handler changes no sinks of the others. -/
theorem sinksOf_addSink (hg : g.Bounded) (sink : Sink) (name : String) :
    (g.addSink sink).2.sinksOf name = g.sinksOf name := by
  rw [sinksOf, sinksOf, channel_addSink]
  refine List.map_congr_left fun h hh => ?_
  rw [sinkOf, sinkOf, getElem?_sinks_addSink sink (hg name h hh)]

/-- The sink that was added last has the next number. -/
theorem sinkOf_addSink_self (g : Registry) (sink : Sink) :
    (g.addSink sink).2.sinkOf g.sinks.length = sink := by
  rw [sinkOf, sinks_addSink, List.getElem?_concat_length]
  rfl

/-- The registry in which a name has one more handler, which is new. -/
def attachNew (g : Registry) (name : String) (sink : Sink) : Registry :=
  let (h, g) := g.addSink sink
  g.attach name h

/-- A new handler comes behind those that a logger has. -/
theorem attachNew_eq (hg : g.Bounded) (name : String) (sink : Sink) :
    g.attachNew name sink = (g.addSink sink).2.setChannel name
      { g.channel name with handlers := (g.channel name).handlers ++ [g.sinks.length] } := by
  -- attaching a handler that is there already would do nothing
  have hnew : g.sinks.length ∉ (g.channel name).handlers :=
    fun hmem => Nat.lt_irrefl _ (hg name _ hmem)
  rw [attachNew]
  exact if_neg hnew

/-- A new handler brings its sink behind those that were there. -/
theorem sinksOf_attachNew (hg : g.Bounded) (name : String) (sink : Sink) :
    (g.attachNew name sink).sinksOf name = g.sinksOf name ++ [sink] := by
  have hold := sinksOf_addSink hg sink name
  rw [sinksOf, channel_addSink] at hold
  rw [attachNew_eq hg, sinksOf_setChannel_self, List.map_append, hold, List.map_singleton,
    sinkOf_addSink_self]

/-- A new handler of one logger is none of another. -/
theorem sinksOf_attachNew_of_ne (hg : g.Bounded) (sink : Sink)
    (hne : channelName name ≠ channelName other) :
    (g.attachNew name sink).sinksOf other = g.sinksOf other := by
  rw [attachNew_eq hg, sinksOf_setChannel_of_ne _ hne, sinksOf_addSink hg]

theorem shared_attachNew (hg : g.Bounded) (name : String) (sink : Sink) :
    (g.attachNew name sink).shared = g.shared := by
  rw [attachNew_eq hg]
  rfl

theorem Bounded.attachNew (hg : g.Bounded) (name : String) (sink : Sink) :
    (g.attachNew name sink).Bounded := by
  refine (hg.addSink sink).attach ?_ name
  rw [sinks_addSink, List.length_append]
  exact Nat.lt_succ_self _

/-! ## Shared loggers -/

/-- There is a logger that stands for the name. -/
def hasLogger (g : Registry) (name : String) : Bool := (g.shared.lookup name).isSome

theorem sharedLogger_of_hasLogger (hg : g.hasLogger name = true) :
    (g.sharedLogger name).2 = g := by
  obtain ⟨logger, hlogger⟩ := Option.isSome_iff_exists.1 hg
  rw [sharedLogger, hlogger]

/-- A logger that is asked for the first time is made, with a handler that writes to the
console. -/
theorem sharedLogger_of_not_hasLogger (hg : g.hasLogger name = false) :
    ∃ logger : Logger, logger.name = name ∧ ∃ n, (g.sharedLogger name).2
      = { (g.addSink .console).2.setChannel name ⟨n, [g.sinks.length]⟩ with
          made := g.made + 1
          shared := (name, logger) :: g.shared.filter fun e => e.1 ≠ name } := by
  rw [hasLogger, Option.isSome_eq_false_iff, Option.isNone_iff_eq_none] at hg
  refine ⟨⟨g.made, name⟩, rfl, Severity.warning.rank, ?_⟩
  rw [sharedLogger, hg]
  rfl

section

variable (g) (name)

theorem hasLogger_sharedLogger : (g.sharedLogger name).2.hasLogger name = true := by
  cases hg : g.hasLogger name with
  | true => rw [sharedLogger_of_hasLogger hg, hg]
  | false =>
    obtain ⟨logger, -, n, heq⟩ := sharedLogger_of_not_hasLogger hg
    rw [heq, hasLogger, List.lookup_cons_self]
    rfl

/-- Asking for one shared logger makes no other. -/
theorem hasLogger_sharedLogger_of_ne (hne : other ≠ name) :
    (g.sharedLogger name).2.hasLogger other = g.hasLogger other := by
  cases hg : g.hasLogger name with
  | true => rw [sharedLogger_of_hasLogger hg]
  | false =>
    obtain ⟨logger, -, n, heq⟩ := sharedLogger_of_not_hasLogger hg
    rw [heq, hasLogger, List.lookup_cons, beq_eq_false_iff_ne.2 hne, lookup_filter_ne _ hne,
      hasLogger]

/-- What asking for a shared logger does to the sinks of its name. -/
theorem sinksOf_sharedLogger :
    (g.sharedLogger name).2.sinksOf name
      = if g.hasLogger name then g.sinksOf name else [.console] := by
  cases hg : g.hasLogger name with
  | true => rw [sharedLogger_of_hasLogger hg, if_pos rfl]
  | false =>
    obtain ⟨logger, -, n, heq⟩ := sharedLogger_of_not_hasLogger hg
    have hself := sinksOf_setChannel_self (g.addSink .console).2 name ⟨n, [g.sinks.length]⟩
    rw [List.map_singleton, sinkOf_addSink_self] at hself
    rw [heq, if_neg Bool.false_ne_true]
    exact hself

/-- Asking for one shared logger leaves the sinks of the others. -/
theorem sinksOf_sharedLogger_of_ne (hg : g.Bounded) (hne : channelName name ≠ channelName other) :
    (g.sharedLogger name).2.sinksOf other = g.sinksOf other := by
  cases hlogger : g.hasLogger name with
  | true => rw [sharedLogger_of_hasLogger hlogger]
  | false =>
    obtain ⟨logger, -, n, heq⟩ := sharedLogger_of_not_hasLogger hlogger
    have hother := sinksOf_setChannel_of_ne (g := (g.addSink .console).2) ⟨n, [g.sinks.length]⟩ hne
    rw [sinksOf_addSink hg] at hother
    rw [heq]
    exact hother

theorem Bounded.sharedLogger (hg : g.Bounded) : (g.sharedLogger name).2.Bounded := by
  cases hlogger : g.hasLogger name with
  | true =>
    rw [sharedLogger_of_hasLogger hlogger]
    exact hg
  | false =>
    obtain ⟨logger, -, n, heq⟩ := sharedLogger_of_not_hasLogger hlogger
    rw [heq]
    refine (hg.addSink .console).setChannel ?_ name
    intro h hh
    rw [List.mem_singleton.1 hh, sinks_addSink, List.length_append]
    exact Nat.lt_succ_self _

end

/-! ## Frames -/

theorem frames_sharedLogger (g : Registry) (name : String) :
    (g.sharedLogger name).2.frames = g.frames := by
  cases hlogger : g.hasLogger name with
  | true => rw [sharedLogger_of_hasLogger hlogger]
  | false =>
    obtain ⟨logger, -, n, heq⟩ := sharedLogger_of_not_hasLogger hlogger
    rw [heq]
    rfl

theorem frames_attachNew (g : Registry) (name : String) (sink : Sink) :
    (g.attachNew name sink).frames = g.frames := by
  rw [attachNew]
  dsimp only
  rw [attach]
  split <;> rfl

/-- **The record of a problem can be shown** if the frames can. -/
theorem isShowable_problemRecord (hg : g.HasShowableFrames) (name message : String) (p : Problem) :
    (g.problemRecord name message p []).isShowable = true :=
  isShowable_overlay (g.isShowable_context hg rfl) rfl

/-! ## Deliveries -/

/-- What is written to a file under a name goes to a sink of this name. -/
theorem mem_sinksOf_of_mem_deliver {layout : Layout} {r : Record} {path : List String} {n : Nat}
    {text : String} (hmem : .file path n text ∈ g.deliver name layout r) :
    .file path n ∈ g.sinksOf name := by
  have hone : ∀ h, .file path n text = (g.sinkOf h).deliver h r layout →
      g.sinkOf h = .file path n := by
    intro h heq
    cases hsink : g.sinkOf h with
    | file p m =>
      rw [hsink] at heq
      cases heq
      rfl
    | kept =>
      rw [hsink] at heq
      cases heq
    | console =>
      rw [hsink] at heq
      cases heq
  rw [deliver] at hmem
  split at hmem
  · split at hmem
    · -- without handlers there is no file that anything could go to
      rw [unhandled] at hmem
      split at hmem
      · cases hmem
      · cases List.mem_singleton.1 hmem
    · obtain ⟨h, hh, heq⟩ := List.mem_map.1 hmem
      exact List.mem_map.2 ⟨h, hh, hone h heq.symm⟩
  · cases hmem

/-- What a logger delivers that writes to the console and to a file. -/
theorem deliver_of_sinksOf {path : List String} {n : Nat}
    (hsinks : g.sinksOf name = [.console, .file path n]) {r : Record}
    (hlevel : (g.channel name).level ≤ r.severity.rank) (layout : Layout) :
    g.deliver name layout r = [.console (r.withProblem layout (r.consoleLine layout)),
      .file path n (r.withProblem layout (r.fileLine layout))] := by
  have hdeliver : ∀ handlers, (g.channel name).handlers = handlers →
      handlers.map g.sinkOf = [.console, .file path n] →
      g.deliver name layout r = handlers.map fun h => (g.sinkOf h).deliver h r layout := by
    rintro handlers rfl hmap
    rw [deliver, admits_severity, if_pos (decide_eq_true hlevel)]
    split
    · next hnone =>
      rw [hnone] at hmap
      cases hmap
    · rfl
  obtain ⟨h, hs, hhandlers, hh, hmap⟩ := List.map_eq_cons_iff.1 hsinks
  obtain ⟨k, ks, rfl, hk, hks⟩ := List.map_eq_cons_iff.1 hmap
  obtain rfl := List.map_eq_nil_iff.1 hks
  rw [hdeliver _ hhandlers (by rw [← hhandlers]; exact hsinks), List.map_cons, List.map_cons, hh,
    hk]
  rfl

end Registry

/-- What does not go to a file leaves the files alone. -/
theorem perform_of_no_file (layout : Layout) {ds : List Delivery} (d : Directory)
    (hds : ∀ path n text, .file path n text ∉ ds) : (perform layout d ds).1 = d := by
  induction ds generalizing d with
  | nil => rfl
  | cons e ds ih =>
    have hone : (e.perform layout d).1 = d := by
      cases e with
      | kept h r => rfl
      | console text => rfl
      | file path n text => exact absurd List.mem_cons_self (hds path n text)
    have hrest := ih (e.perform layout d).1 fun path n text hmem =>
      hds path n text (List.mem_cons_of_mem e hmem)
    exact hrest.trans hone

/-- **What is delivered to a log file changes this file and its backups**, and nothing else. -/
theorem kept_perform (layout : Layout) {ds : List Delivery} {d : Directory} {b : List String}
    {s : Nat} (hb : b ≠ []) (hd : Directory.Placed b d) (hs : Directory.Leads b d s)
    (hds : ∀ path n text, .file path n text ∈ ds → path = b ∧ n = s) :
    Directory.Kept b d (perform layout d ds).1 := by
  induction ds generalizing d with
  | nil => exact .refl b d
  | cons e ds ih =>
    have hone : Directory.Kept b d (e.perform layout d).1 := by
      cases e with
      | kept h r => exact .refl b d
      | console text => exact .refl b d
      | file path n text =>
        obtain ⟨rfl, rfl⟩ := hds path n text List.mem_cons_self
        exact Directory.Keeps.emit hb n text d hd hs
    exact hone.trans (ih (hd.same hb hone.same) (hone.leads s hs) fun path n text hmem =>
      hds path n text (List.mem_cons_of_mem e hmem))

end IgnoreRules.Log
