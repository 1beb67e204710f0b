/-
# The history of loggers

Handlers are made, loggers are made, their levels are set, handlers that keep records are attached
and detached, frames are pushed and popped, and there are calls.  This module says from the history
alone which handlers get the record of a call, and what that record holds.

* `Registry.after` : one step after the other;
* `Standing` : the level of a name and its handlers that keep records;
* `standing_after` : the standing of a name comes from the steps on this name;
* `filterMap_kept?_deliver` : who gets a record;
* `records_reach_attached_handlers` : what a call delivers, and to whom.

The empty name and `root` are two spellings of one name, and so steps on the one count for the
other; `records_reach_handlers_of_other_spelling` is what comes of this.
-/
import IgnoreRules.Proofs.LogChannels
import IgnoreRules.Proofs.LogContexts
import Mathlib.Data.List.Nodup

namespace IgnoreRules.Log

/-! ## Calls and steps -/

/-- A call of a logger. -/
inductive Call where
  | entry (severity : Severity) (message : String) (own : Named)
  | problem (message : String) (p : Problem) (own : Named)

/-- What a record says of a problem. -/
def Problem.named (p : Problem) : Named :=
  ⟨[("exception_type", .text p.name), ("exception_message", .text p.text)], by simp⟩

namespace Call

/-- How serious the call is.  A problem is an error. -/
def severity : Call → Severity
  | .entry severity _ _ => severity
  | .problem _ _ _ => .error

def message : Call → String
  | .entry _ message _ => message
  | .problem message _ _ => message

def problem? : Call → Option Problem
  | .entry _ _ _ => none
  | .problem _ p _ => some p

/-- The layers that the call lays over the frames, the innermost first. -/
def layers : Call → List Named
  | .entry _ _ own => [own]
  | .problem _ p own => [p.named, own]

/-- The record of a call under a name, with the frames that are open. -/
def record (name : String) (frames : List Named) (c : Call) : Record :=
  let context := layered (c.layers ++ frames)
  ⟨Registry.channelName name, c.severity, messageWith c.message context, context, c.problem?⟩

end Call

/-- What can be done to the loggers. -/
inductive Step where
  /-- Makes a handler that keeps records. -/
  | makeHandler
  | create (name : String) (level : Level) (handlers : Option (List Nat))
  | setLevel (name : String) (level : Level)
  | attach (name : String) (handler : Nat)
  | detach (name : String) (handler : Nat)
  | push (frame : Named)
  | pop
  | call (name : String) (c : Call)

/-- The name that a step changes. -/
def Step.name? : Step → Option String
  | .create name _ _ | .setLevel name _ | .attach name _ | .detach name _ => some name
  | .makeHandler | .push _ | .pop | .call _ _ => none

/-- The step changes a name. -/
def Step.isOn (name : String) (c : Step) : Bool :=
  c.name?.any fun n => Registry.channelName n = Registry.channelName name

/-- The frames behind a step, the innermost first. -/
def Step.frames (frames : List Named) : Step → List Named
  | .push frame => frame :: frames
  | .pop => frames.drop 1
  | _ => frames

/-- The frames that steps leave open, the innermost first. -/
def openFrames (steps : List Step) : List Named := steps.foldl Step.frames []

namespace Registry

variable {g : Registry} {c : Step} {name : String} {h : Nat}

/-- Takes a step, if it does not fail. -/
def step (g : Registry) : Step → Registry
  | .makeHandler => (g.addSink .kept).2
  | .create name level handlers =>
      match g.create name level handlers with
      | .ok (_, g) => g
      | .error _ => g
  | .setLevel name level =>
      match g.setLevel name level with
      | .ok g => g
      | .error _ => g
  | .attach name handler => g.attach name handler
  | .detach name handler => g.detach name handler
  | .push frame => g.push frame.entries
  | .pop => g.pop
  | .call _ _ => g

/-- The registry behind steps that are taken one after the other. -/
def after (g : Registry) (steps : List Step) : Registry := steps.foldl step g

/-- What is delivered for a call, unless it fails because its context cannot be shown. -/
def deliveries (g : Registry) (name : String) (layout : Layout) : Call → Option (List Delivery)
  | .entry severity message own => g.log name layout ⟨severity, message, own.entries⟩
  | .problem message p own => g.report name layout message p own.entries

/-- The handler keeps records. -/
def keeps (g : Registry) (handler : Nat) : Bool := g.sinks[handler]? = some .kept

end Registry

/-- A level above zero, at which a logger has no level of its own. -/
def Level.isPositive : Level → Bool
  | .named _ => true
  | .rank n => 0 < n

/-- The levels that are set are above zero, and the handlers that are named were made to keep
records. -/
def Step.isProper (g : Registry) : Step → Bool
  | .create _ level handlers => level.isPositive && (handlers.getD []).all g.keeps
  | .setLevel _ level => level.isPositive
  | .attach _ handler | .detach _ handler => g.keeps handler
  | .makeHandler | .push _ | .pop | .call _ _ => true

/-- The same for every step in its turn. -/
def areProper (g : Registry) : List Step → Bool
  | [] => true
  | c :: cs => c.isProper g && areProper (g.step c) cs

/-- The handler that keeps a record, with the record. -/
def Delivery.kept? : Delivery → Option (Nat × Record)
  | .kept h r => some (h, r)
  | _ => none

/-! ## The standing of a name -/

/-- The level of a name, and its handlers that keep records, in the order of their attachment. -/
@[ext]
structure Standing where
  level : Int
  handlers : List Nat
deriving DecidableEq, Repr

namespace Standing

/-- The standing of a name that nothing was done to. -/
def start : Standing := ⟨Severity.warning.rank, []⟩

/-- The standing behind a step on the name.  Making a logger starts all over; a level that is not
known changes nothing. -/
def step (s : Standing) : Step → Standing
  | .create _ level handlers =>
      match level.rank? with
      | .ok n => ⟨n, (handlers.getD []).eraseDups⟩
      | .error _ => s
  | .setLevel _ level =>
      match level.rank? with
      | .ok n => { s with level := n }
      | .error _ => s
  | .attach _ h => if h ∈ s.handlers then s else { s with handlers := s.handlers ++ [h] }
  | .detach _ h => { s with handlers := s.handlers.filter (· ≠ h) }
  | .makeHandler | .push _ | .pop | .call _ _ => s

/-- The standing behind steps on the name that are taken one after the other. -/
def after (s : Standing) (steps : List Step) : Standing := steps.foldl step s

/-- No handler is attached twice. -/
theorem nodup_step {s : Standing} (hs : s.handlers.Nodup) (c : Step) :
    (s.step c).handlers.Nodup := by
  cases c with
  | create name level handlers =>
    rw [step]
    cases level.rank? with
    | ok n => exact Recency.nodup_eraseDups _
    | error e => exact hs
  | setLevel name level =>
    rw [step]
    cases level.rank? with
    | ok n => exact hs
    | error e => exact hs
  | attach name h =>
    rw [step]
    split
    · exact hs
    · next hnew => exact hs.append (List.nodup_singleton h) (by simpa using hnew)
  | detach name h => exact hs.filter _
  | _ => exact hs

/-- No handler is attached twice, whatever the steps are. -/
theorem nodup_after {s : Standing} (hs : s.handlers.Nodup) (steps : List Step) :
    (s.after steps).handlers.Nodup := by
  induction steps generalizing s with
  | nil => exact hs
  | cons c cs ih => exact ih (nodup_step hs c)

end Standing

namespace Registry

variable {g : Registry} {c : Step} {name : String} {h : Nat}

/-- The standing of a name. -/
def standing (g : Registry) (name : String) : Standing :=
  ⟨(g.channel name).level, (g.channel name).handlers.filter g.keeps⟩

/-! ## One step -/

theorem lt_of_keeps (hk : g.keeps h = true) : h < g.sinks.length := by
  have hsome : g.sinks[h]? = some .kept := of_decide_eq_true hk
  obtain ⟨hlt, -⟩ := List.getElem?_eq_some_iff.1 hsome
  exact hlt

/-- A new handler changes no standing. -/
theorem standing_addSink (hg : g.Bounded) (sink : Sink) (name : String) :
    (g.addSink sink).2.standing name = g.standing name := by
  rw [standing, standing, channel_addSink]
  congr 1
  apply List.filter_congr
  intro h hh
  rw [keeps, keeps, getElem?_sinks_addSink sink (hg name h hh)]

/-- A change of a channel changes the standing of its name. -/
theorem standing_setChannel (g : Registry) (name : String) (c : Channel) (other : String) :
    (g.setChannel name c).standing other
      = if channelName name = channelName other then ⟨c.level, c.handlers.filter g.keeps⟩
        else g.standing other := by
  rw [standing, channel_setChannel]
  split
  · rfl
  · rfl

/-- Two spellings of one name have one standing. -/
theorem standing_congr {other : String} (h : channelName name = channelName other) :
    g.standing name = g.standing other := by
  rw [standing, standing, channel_congr h]

/-- The standing behind a step that changes one channel. -/
theorem standing_setChannel_step {n : String} {k : Channel} (hon : c.name? = some n)
    (hk : (⟨k.level, k.handlers.filter g.keeps⟩ : Standing) = (g.standing n).step c)
    (name : String) :
    (g.setChannel n k).standing name
      = if c.isOn name then (g.standing name).step c else g.standing name := by
  rw [standing_setChannel, Step.isOn, hon, Option.any_some, hk]
  by_cases hname : channelName n = channelName name
  · rw [if_pos hname, if_pos (decide_eq_true hname), standing_congr hname]
  · rw [if_neg hname, if_neg (by simpa using hname)]

section

variable {level : Level} {r : Int} {e : LevelFault}

theorem step_create_of_error (hlevel : level.rank? = .error e) (name : String)
    (handlers : Option (List Nat)) : g.step (.create name level handlers) = g := by
  simp only [step, create, hlevel, Except.map]

theorem step_create_some (hlevel : level.rank? = .ok r) (name : String) (hs : List Nat) :
    g.step (.create name level (some hs))
      = { g.setChannel name ⟨r, hs.eraseDups⟩ with made := g.made + 1 } := by
  simp only [step, create, hlevel, Except.map, withoutRepeats_eq]

/-- A logger that is given no handlers gets one for the console. -/
theorem step_create_none (hlevel : level.rank? = .ok r) (name : String) :
    g.step (.create name level none)
      = { (g.addSink .console).2.setChannel name ⟨r, [g.sinks.length]⟩ with
          made := g.made + 1 } := by
  simp only [step, create, hlevel, Except.map]
  rfl

theorem step_setLevel_of_error (hlevel : level.rank? = .error e) (name : String) :
    g.step (.setLevel name level) = g := by
  simp only [step, setLevel, hlevel, Except.map]

theorem step_setLevel (hlevel : level.rank? = .ok r) (name : String) :
    g.step (.setLevel name level) = g.setChannel name { g.channel name with level := r } := by
  simp only [step, setLevel, hlevel, Except.map]

end

/-- Making a logger changes the standing of its own name only. -/
theorem standing_create (hg : g.Bounded) {level : Level} {handlers : Option (List Nat)}
    (hh : ∀ h ∈ handlers.getD [], g.keeps h = true) (n name : String) :
    (g.step (.create n level handlers)).standing name
      = if (Step.create n level handlers).isOn name
        then (g.standing name).step (.create n level handlers) else g.standing name := by
  cases hlevel : level.rank? with
  | error e =>
    rw [step_create_of_error hlevel, Standing.step, hlevel]
    exact (ite_self _).symm
  | ok r =>
    cases handlers with
    | some hs =>
      rw [step_create_some hlevel]
      refine standing_setChannel_step rfl ?_ name
      rw [Standing.step, hlevel]
      congr 1
      exact List.filter_eq_self.2 fun h hmem => hh h (List.mem_eraseDups.1 hmem)
    | none =>
      have hconsole : (g.addSink .console).2.keeps g.sinks.length = false := by
        rw [keeps, sinks_addSink, List.getElem?_concat_length]
        rfl
      rw [step_create_none hlevel, ← standing_addSink hg .console name]
      refine standing_setChannel_step rfl ?_ name
      -- the handler that is made writes to the console
      rw [Standing.step, hlevel, List.filter_cons_of_neg (by rw [hconsole]; simp)]
      rfl

theorem standing_setLevel (level : Level) (n name : String) :
    (g.step (.setLevel n level)).standing name
      = if (Step.setLevel n level).isOn name
        then (g.standing name).step (.setLevel n level) else g.standing name := by
  cases hlevel : level.rank? with
  | error e =>
    rw [step_setLevel_of_error hlevel, Standing.step, hlevel]
    exact (ite_self _).symm
  | ok r =>
    rw [step_setLevel hlevel]
    refine standing_setChannel_step rfl ?_ name
    rw [Standing.step, hlevel]
    rfl

theorem standing_attach (hh : g.keeps h = true) (n name : String) :
    (g.step (.attach n h)).standing name
      = if (Step.attach n h).isOn name
        then (g.standing name).step (.attach n h) else g.standing name := by
  -- as the handler keeps records, it is attached exactly if it belongs to the standing
  have hmem : ∀ m, h ∈ (g.standing m).handlers ↔ h ∈ (g.channel m).handlers :=
    fun m => List.mem_filter.trans (and_iff_left hh)
  rw [step, attach]
  by_cases hattached : h ∈ (g.channel n).handlers
  · rw [if_pos hattached, Standing.step]
    by_cases hname : channelName n = channelName name
    · rw [if_pos ((hmem name).2 (channel_congr hname ▸ hattached)), ite_self]
    · rw [if_neg (by simpa [Step.isOn, Step.name?] using hname)]
  · rw [if_neg hattached]
    refine standing_setChannel_step rfl ?_ name
    rw [Standing.step, if_neg (mt (hmem n).1 hattached), standing, List.filter_append,
      List.filter_cons_of_pos hh]
    rfl

theorem standing_detach (h : Nat) (n name : String) :
    (g.step (.detach n h)).standing name
      = if (Step.detach n h).isOn name
        then (g.standing name).step (.detach n h) else g.standing name := by
  refine standing_setChannel_step rfl ?_ name
  rw [Standing.step, standing, List.filter_filter, List.filter_filter]
  simp only [Bool.and_comm]

/-- **A step changes the standing of its name** as it should, and no other. -/
theorem standing_step (hg : g.Bounded) (hc : c.isProper g = true) (name : String) :
    (g.step c).standing name
      = if c.isOn name then (g.standing name).step c else g.standing name := by
  cases c with
  | makeHandler => exact standing_addSink hg .kept name
  | create n level handlers =>
    exact standing_create hg (List.all_eq_true.1 (Bool.and_eq_true_iff.1 hc).2) n name
  | setLevel n level => exact standing_setLevel level n name
  | attach n h => exact standing_attach hc n name
  | detach n h => exact standing_detach h n name
  | push frame => rfl
  | pop => rfl
  | call n c => rfl

/-- Handlers that are attached were made, whatever step is taken. -/
theorem Bounded.step (hg : g.Bounded) (hc : c.isProper g = true) : (g.step c).Bounded := by
  cases c with
  | makeHandler => exact hg.addSink .kept
  | create n level handlers =>
    cases hlevel : level.rank? with
    | error e =>
      rw [step_create_of_error hlevel]
      exact hg
    | ok r =>
      cases handlers with
      | some hs =>
        have hkeeps := List.all_eq_true.1 (Bool.and_eq_true_iff.1 hc).2
        rw [step_create_some hlevel]
        exact hg.setChannel (fun h hh => lt_of_keeps (hkeeps h (List.mem_eraseDups.1 hh))) n
      | none =>
        rw [step_create_none hlevel]
        refine (hg.addSink .console).setChannel ?_ n
        intro h hh
        rw [List.mem_singleton.1 hh, sinks_addSink, List.length_append]
        exact Nat.lt_succ_self _
  | setLevel n level =>
    cases hlevel : level.rank? with
    | error e =>
      rw [step_setLevel_of_error hlevel]
      exact hg
    | ok r =>
      rw [step_setLevel hlevel]
      refine hg.setChannel ?_ n
      exact hg n
  | attach n h => exact hg.attach (lt_of_keeps hc) n
  | detach n h => exact hg.detach n h
  | push frame => exact hg
  | pop => exact hg
  | call n c => exact hg

/-! ## Many steps -/

/-- **The standing of a name comes from the steps on this name**, whatever was done under others. -/
theorem standing_after (hg : g.Bounded) {steps : List Step} (hsteps : areProper g steps = true)
    (name : String) : (g.after steps).Bounded ∧
      (g.after steps).standing name
        = (g.standing name).after (steps.filter fun c => c.isOn name) := by
  induction steps generalizing g with
  | nil => exact ⟨hg, rfl⟩
  | cons c cs ih =>
    obtain ⟨hc, hcs⟩ := Bool.and_eq_true_iff.1 hsteps
    obtain ⟨hbounded, hstanding⟩ := ih (hg.step hc) hcs
    refine ⟨hbounded, hstanding.trans ?_⟩
    rw [standing_step hg hc]
    by_cases hon : c.isOn name = true
    · rw [if_pos hon, List.filter_cons_of_pos hon]
      rfl
    · rw [if_neg hon, List.filter_cons_of_neg hon]

/-! ## Frames -/

/-- A step changes the frames as it should. -/
theorem frames_step {frames : List Named} (hg : g.frames = frames.map Named.entries) (c : Step) :
    (g.step c).frames = (c.frames frames).map Named.entries := by
  cases c with
  | create name level handlers =>
    cases hlevel : level.rank? with
    | error e =>
      rw [step_create_of_error hlevel]
      exact hg
    | ok r =>
      cases handlers with
      | some hs =>
        rw [step_create_some hlevel]
        exact hg
      | none =>
        rw [step_create_none hlevel]
        exact hg
  | setLevel name level =>
    cases hlevel : level.rank? with
    | error e =>
      rw [step_setLevel_of_error hlevel]
      exact hg
    | ok r =>
      rw [step_setLevel hlevel]
      exact hg
  | attach name h =>
    rw [step, attach]
    split
    · exact hg
    · exact hg
  | push frame => exact congrArg (frame.entries :: ·) hg
  | pop =>
    show g.frames.drop 1 = _
    rw [hg, Step.frames, List.map_drop]
  | _ => exact hg

/-- The open frames come from the pushes and pops. -/
theorem frames_after {frames : List Named} (hg : g.frames = frames.map Named.entries)
    (steps : List Step) :
    (g.after steps).frames = (steps.foldl Step.frames frames).map Named.entries := by
  induction steps generalizing g frames with
  | nil => exact hg
  | cons c cs ih => exact ih (frames_step hg c)

/-- The context of a call is made of its own values and of the frames. -/
theorem context_eq {frames : List Named} (hg : g.frames = frames.map Named.entries) (own : Named) :
    g.context own.entries = layered (own :: frames) := by
  have hframes : g.frames.reverse.foldl overlay [] = layered frames := by
    rw [hg, List.foldl_reverse, List.foldr_map]
    clear hg
    induction frames with
    | nil => rfl
    | cons n outer ih => rw [List.foldr_cons, ih, layered]
  rw [context, hframes, layered]

/-! ## Deliveries -/

/-- A handler keeps what it is handed exactly if it keeps records. -/
theorem kept?_deliver (hh : h < g.sinks.length) (r : Record) (layout : Layout) :
    ((g.sinks[h]?.getD .kept).deliver h r layout).kept?
      = if g.keeps h then some (h, r) else none := by
  rw [keeps, List.getElem?_eq_getElem hh, Option.getD_some]
  cases g.sinks[h] with
  | kept => rfl
  | console => rfl
  | file path n => rfl

/-- **Who gets a record**: the handlers that keep records and are attached to the name, in the order
of their attachment, if the record is at least as serious as the level, and nobody otherwise. -/
theorem filterMap_kept?_deliver (hg : g.Bounded) (name : String) (layout : Layout) (r : Record) :
    (g.deliver name layout r).filterMap Delivery.kept?
      = if (g.standing name).level ≤ r.severity.rank
        then (g.standing name).handlers.map fun h => (h, r) else [] := by
  have hkept : ∀ hs : List Nat, (∀ h ∈ hs, h < g.sinks.length) →
      (hs.map fun h => (g.sinks[h]?.getD .kept).deliver h r layout).filterMap Delivery.kept?
        = (hs.filter g.keeps).map fun h => (h, r) := by
    intro hs hlt
    induction hs with
    | nil => rfl
    | cons h hs ih =>
      have hrest := ih fun k hk => hlt k (List.mem_cons_of_mem h hk)
      rw [List.map_cons, List.filterMap_cons, kept?_deliver (hlt h List.mem_cons_self), hrest,
        List.filter_cons]
      cases g.keeps h <;> rfl
  rw [deliver, admits_severity, standing]
  by_cases hlevel : (g.channel name).level ≤ r.severity.rank
  · rw [if_pos (decide_eq_true hlevel), if_pos hlevel]
    split
    · next hnone =>
      -- without handlers nobody keeps anything
      rw [hnone, unhandled]
      split
      · rfl
      · rfl
    · exact hkept _ (hg name)
  · rw [if_neg (by simpa using hlevel), if_neg hlevel]
    rfl

/-- What is delivered for a call is its record.  A record that cannot be shown makes the call fail, if
it is that of a problem or the level lets it pass. -/
theorem deliveries_eq {frames : List Named} (hg : g.frames = frames.map Named.entries)
    (name : String) (layout : Layout) (call : Call) :
    let r := call.record name frames
    g.deliveries name layout call
      = if r.isShowable ∨ call.problem? = none ∧ ¬(g.standing name).level ≤ call.severity.rank
        then some (g.deliver name layout r) else none := by
  intro r
  cases call with
  | entry severity message own =>
    have hrecord : g.entryRecord name ⟨severity, message, own.entries⟩ = r := by
      rw [entryRecord, context_eq hg]
      rfl
    rw [deliveries, log, hrecord, admits_severity]
    cases r.isShowable <;> by_cases hlevel : (g.channel name).level ≤ severity.rank <;>
      simp [hlevel, standing, Call.problem?, Call.severity]
  | problem message p own =>
    have hrecord : g.problemRecord name message p own.entries = r := by
      rw [problemRecord, context_eq hg]
      rfl
    rw [deliveries, report, hrecord]
    simp [Call.problem?]

end Registry

/-! ## Messages -/

/-- A message stands alone, or with the names and the values of its context behind it. -/
theorem messageWith_entries (message : String) (context : Named) :
    messageWith message context.entries
      = if context.values = [] then message
        else message ++ " | " ++
          Text.join " " (context.values.map fun e => e.1 ++ "=" ++ e.2.shown) := by
  rw [messageWith, Named.entries, List.isEmpty_map, contextText, List.map_map]
  by_cases hnone : context.values = []
  · rw [if_pos hnone, if_pos (by rw [hnone]; rfl)]
  · rw [if_neg hnone, if_neg (by simpa using hnone)]
    rfl

/-! ## Matching pushes and pops -/

/-- Steps in which every frame that is pushed is popped again, and no other. -/
inductive Balanced : List Step → Prop where
  | nil : Balanced []
  | other {c : Step} {cs : List Step} (hpush : ∀ frame, c ≠ .push frame) (hpop : c ≠ .pop)
      (hcs : Balanced cs) : Balanced (c :: cs)
  | framed (frame : Named) {inner cs : List Step} (hinner : Balanced inner) (hcs : Balanced cs) :
      Balanced (.push frame :: (inner ++ .pop :: cs))

theorem Step.frames_of_ne {c : Step} (hpush : ∀ frame, c ≠ .push frame) (hpop : c ≠ .pop)
    (frames : List Named) : c.frames frames = frames := by
  cases c with
  | push frame => exact absurd rfl (hpush frame)
  | pop => exact absurd rfl hpop
  | _ => rfl

/-- Behind matching pushes and pops the frames are what they were. -/
theorem Balanced.foldl_frames {cs : List Step} (h : Balanced cs) (frames : List Named) :
    cs.foldl Step.frames frames = frames := by
  induction h generalizing frames with
  | nil => rfl
  | other hpush hpop hcs ih => rw [List.foldl_cons, Step.frames_of_ne hpush hpop, ih]
  | framed frame hinner hcs ihinner ihcs =>
    rw [List.foldl_cons, List.foldl_append, ihinner, List.foldl_cons, ihcs]
    rfl

/-! ## Exact delivery -/

/-- **Records reach the handlers that are attached.**  Whatever was done before, and under whatever
names, a call of a logger hands one record to each handler that keeps records and is attached to
the name, in the order of their attachment, if the call is at least as serious as the level of the
name, and no record otherwise; no other such handler gets one.  Only a call whose context holds a
value that cannot be shown fails and hands out nothing, if it reports a problem or is serious
enough.  The level and the handlers of a name are what the steps on this name made them, where the
empty name and `root` are one.  In the context each key has the value of the innermost layer that
holds it, where a problem lies over the call and the call over the frames, and the keys stand in the
order in which they first appear from the outermost frame on.  The message has the context behind
it, unless that is empty.  Matching pushes and pops leave the frames as they were. -/
theorem records_reach_attached_handlers {steps : List Step}
    (hsteps : areProper .empty steps = true) (name : String) (layout : Layout) (call : Call) :
    let g := Registry.empty.after steps
    let standing := Standing.start.after (steps.filter fun c => c.isOn name)
    let layers := call.layers ++ openFrames steps
    ∃ (r : Record) (context : Named),
      ((g.deliveries name layout call).map fun ds => ds.filterMap Delivery.kept?)
        = (if (context.values.all fun e => e.2.isShowable) ∨
              call.problem? = none ∧ ¬standing.level ≤ call.severity.rank
          then some (if standing.level ≤ call.severity.rank
            then standing.handlers.map fun h => (h, r) else [])
          else none) ∧
      standing.handlers.Nodup ∧
      r.channel = Registry.channelName name ∧ r.severity = call.severity ∧
      r.problem = call.problem? ∧ r.context = context.entries ∧
      (∀ key, context.value? key = layers.findSome? fun n => n.value? key) ∧
      context.names = (layers.reverse.flatMap Named.names).eraseDups ∧
      r.message = (if context.values = [] then call.message
        else call.message ++ " | " ++
          Text.join " " (context.values.map fun e => e.1 ++ "=" ++ e.2.shown)) ∧
      ∀ inner, Balanced inner → (g.after inner).frames = g.frames := by
  intro g standing layers
  obtain ⟨hbounded, hstanding⟩ := Registry.standing_after .empty hsteps name
  have hframes : g.frames = (openFrames steps).map Named.entries := Registry.frames_after rfl steps
  have hstart : Registry.empty.standing name = .start := rfl
  obtain ⟨context, hcontext, hnames, hvalues⟩ := exists_named_layered layers
  let r := call.record name (openFrames steps)
  have hkept := Registry.filterMap_kept?_deliver hbounded name layout r
  rw [hstanding, hstart] at hkept
  have hrcontext : r.context = context.entries := hcontext
  have hshowable : r.isShowable = context.values.all fun e => e.2.isShowable := by
    rw [Record.isShowable, hrcontext, isShowable_entries]
  have hmessage : r.message = messageWith call.message context.entries := by
    rw [← hcontext]
    rfl
  refine ⟨r, context, ?_, Standing.nodup_after List.nodup_nil _, rfl, rfl, rfl, hcontext, hvalues,
    hnames, hmessage.trans (messageWith_entries _ _), ?_⟩
  · rw [Registry.deliveries_eq hframes, hstanding, hstart, hshowable, apply_ite (Option.map _),
      Option.map_some, Option.map_none, hkept]
    rfl
  · intro inner hinner
    rw [Registry.frames_after hframes inner, hinner.foldl_frames, hframes]

/-- Two handlers of `app.db`, one of which `app` shares, with a frame that the call shadows. -/
def nestedNames : List Step :=
  [.makeHandler, .makeHandler, .create "app" (.named "error") (some [0]),
    .create "app.db" (.rank 20) (some [1, 1]),
    .push ⟨[("user", .text "u"), ("id", .int 1)], by decide⟩,
    .attach "app.db" 0, .setLevel "app" (.rank 50), .detach "app" 0]

theorem records_reach_attached_handlers_of_nested_names :
    areProper .empty nestedNames = true ∧
      ∃ (r : Record) (context : Named),
        ((Registry.empty.after nestedNames).deliveries "app.db" ⟨"", "", ""⟩
            (.problem "lost" ⟨"KeyError", "KeyError", "k", true⟩
              ⟨[("id", .int 2), ("exception_type", .null)], by decide⟩)).map
            (fun ds => ds.filterMap Delivery.kept?)
          = some [(1, r), (0, r)] ∧
        context.names = ["user", "id", "exception_type", "exception_message"] ∧
        context.value? "id" = some (.int 2) ∧
        context.value? "exception_type" = some (.text "KeyError") := by
  have hproper : areProper .empty nestedNames = true := by decide +kernel
  let call : Call := .problem "lost" ⟨"KeyError", "KeyError", "k", true⟩
    ⟨[("id", .int 2), ("exception_type", .null)], by decide⟩
  obtain ⟨r, context, hkept, -, -, -, -, -, hvalues, hnames, -⟩ :=
    records_reach_attached_handlers hproper "app.db" ⟨"", "", ""⟩ call
  have hshowable : (context.values.all fun e => e.2.isShowable) = true := by
    have hvalues' : (call.layers ++ openFrames nestedNames).flatMap Named.values
        = [("exception_type", .text "KeyError"), ("exception_message", .text "k"),
          ("id", .int 2), ("exception_type", .null), ("user", .text "u"), ("id", .int 1)] := rfl
    have hall : ∀ e ∈ (call.layers ++ openFrames nestedNames).flatMap Named.values,
        e.2.isShowable = true := by
      rw [hvalues']
      simp [-Prod.forall, Value.isShowable, Scalar.isShowable, Number.digits, Number.digitsOnto,
        Number.maxDigits]
    exact all_isShowable hvalues fun n hn e he => hall e (List.mem_flatMap.2 ⟨n, hn, he⟩)
  rw [if_pos (Or.inl hshowable)] at hkept
  refine ⟨hproper, r, context, hkept.trans ?_, hnames.trans ?_, (hvalues "id").trans ?_,
    (hvalues "exception_type").trans ?_⟩
  · rfl
  · rfl
  · rfl
  · rfl

/-- **Steps on `root` are steps on the empty name.**  The level of the empty name was set to let
everything pass, and it was given no handler; but then a logger was made under `root` with a
handler, and this handler gets what is logged under the empty name. -/
theorem records_reach_handlers_of_other_spelling :
    let steps : List Step := [.makeHandler, .create "" (.rank 10) (some []),
      .create "root" (.rank 10) (some [0])]
    areProper .empty steps = true ∧
      Standing.start.after (steps.filter fun c => c.name? = some "") = ⟨10, []⟩ ∧
      ((Registry.empty.after steps).deliveries "" ⟨"", "", ""⟩
          (.entry .debug "m" ⟨[], by decide⟩)).map
          (fun ds => ds.filterMap fun d => d.kept?.map Prod.fst) = some [0] := by
  decide +kernel

end IgnoreRules.Log
