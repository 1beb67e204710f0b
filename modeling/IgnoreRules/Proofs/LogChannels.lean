/-
# Channels of a registry

What is done under a name changes the channel of that name, and no other.

* `channel_setChannel` : the channel behind a change of one;
* `Bounded` : every handler that is attached was made;
* `withoutRepeats_eq` : a handler that is named twice is attached once;
* `isShowable_context` : the context of a call can be shown if it can and the frames can.
-/
import IgnoreRules.Log.Registry
import IgnoreRules.Proofs.LogContexts
import IgnoreRules.Proofs.Recency

namespace IgnoreRules.Log.Registry

variable {g : Registry} {name : String} {h : Nat}

/-! ## One channel -/

/-- **Changing the channel of a name** changes that of the same name, and no other. -/
theorem channel_setChannel (g : Registry) (name : String) (c : Channel) (other : String) :
    (g.setChannel name c).channel other
      = if channelName name = channelName other then c else g.channel other := by
  rw [channel, setChannel]
  dsimp only
  by_cases hname : channelName name = channelName other
  · rw [if_pos hname, hname, List.lookup_cons_self, Option.getD_some]
  · have hbeq : (channelName other == channelName name) = false :=
      beq_eq_false_iff_ne.2 (Ne.symm hname)
    rw [if_neg hname, List.lookup_cons, hbeq, lookup_filter_ne _ (Ne.symm hname), channel]

@[simp] theorem channel_setChannel_self (g : Registry) (name : String) (c : Channel) :
    (g.setChannel name c).channel name = c := by
  rw [channel_setChannel, if_pos rfl]

/-- Names of one channel share it. -/
theorem channel_congr {other : String} (h : channelName name = channelName other) :
    g.channel name = g.channel other := by
  rw [channel, channel, h]

/-- Every severity is above zero, and so only the level decides. -/
theorem admits_severity (g : Registry) (name : String) (v : Severity) :
    g.admits name v.rank = decide ((g.channel name).level ≤ v.rank) := by
  have hpos : decide ((0 : Int) < v.rank) = true := by cases v <;> rfl
  rw [admits, hpos, Bool.true_and]

/-! ## Handlers -/

@[simp] theorem channel_addSink (g : Registry) (sink : Sink) (name : String) :
    (g.addSink sink).2.channel name = g.channel name := rfl

@[simp] theorem sinks_addSink (g : Registry) (sink : Sink) :
    (g.addSink sink).2.sinks = g.sinks ++ [sink] := rfl

/-- Handlers that were made before keep their sinks. -/
theorem getElem?_sinks_addSink (sink : Sink) (hh : h < g.sinks.length) :
    (g.addSink sink).2.sinks[h]? = g.sinks[h]? := by
  rw [sinks_addSink, List.getElem?_append_left hh]

/-- Every handler that is attached to a channel was made. -/
def Bounded (g : Registry) : Prop :=
  ∀ name, ∀ h ∈ (g.channel name).handlers, h < g.sinks.length

theorem Bounded.empty : Bounded .empty := by
  intro name h hh
  cases hh

theorem Bounded.addSink (hg : g.Bounded) (sink : Sink) : (g.addSink sink).2.Bounded := by
  intro name h hh
  have hlt := hg name h hh
  rw [sinks_addSink, List.length_append]
  omega

/-- A channel whose handlers were made may be given to any name. -/
theorem Bounded.setChannel (hg : g.Bounded) {c : Channel}
    (hc : ∀ h ∈ c.handlers, h < g.sinks.length) (name : String) :
    (g.setChannel name c).Bounded := by
  intro other h hh
  rw [channel_setChannel] at hh
  split at hh
  · exact hc h hh
  · exact hg other h hh

theorem Bounded.attach (hg : g.Bounded) (hh : h < g.sinks.length) (name : String) :
    (g.attach name h).Bounded := by
  rw [Registry.attach]
  split
  · exact hg
  · refine hg.setChannel ?_ name
    intro k hk
    rcases List.mem_append.1 hk with hk | hk
    · exact hg name k hk
    · rw [List.mem_singleton.1 hk]
      exact hh

theorem Bounded.detach (hg : g.Bounded) (name : String) (h : Nat) : (g.detach name h).Bounded :=
  hg.setChannel (fun k hk => hg name k (List.mem_filter.1 hk).1) name

/-- A handler that is named twice is attached once, where it is named first. -/
theorem withoutRepeats_eq (hs : List Nat) : withoutRepeats hs = hs.eraseDups := by
  suffices hacc : ∀ acc : List Nat,
      hs.foldl (fun acc h => if h ∈ acc then acc else acc ++ [h]) acc.eraseDups
        = (acc ++ hs).eraseDups from hacc []
  induction hs with
  | nil =>
    intro acc
    rw [List.append_nil]
    rfl
  | cons h hs ih =>
    intro acc
    have hone : (if h ∈ acc.eraseDups then acc.eraseDups else acc.eraseDups ++ [h])
        = (acc ++ [h]).eraseDups := by
      simp only [Recency.eraseDups_concat, List.mem_eraseDups]
    rw [List.foldl_cons, hone, ih, List.append_assoc]
    rfl

/-! ## Contexts -/

/-- The frames can be shown. -/
def HasShowableFrames (g : Registry) : Prop :=
  ∀ frame ∈ g.frames, (Value.mapping frame).isShowable = true

/-- **The context of a call can be shown** if its own entries and the frames can. -/
theorem isShowable_context (hg : g.HasShowableFrames) {own : Entries}
    (hown : (Value.mapping own).isShowable = true) :
    (Value.mapping (g.context own)).isShowable = true := by
  refine isShowable_overlay ?_ hown
  rw [List.foldl_reverse]
  rw [HasShowableFrames] at hg
  generalize g.frames = frames at hg
  induction frames with
  | nil => rfl
  | cons frame frames ih =>
    exact isShowable_overlay (ih fun f hf => hg f (List.mem_cons_of_mem frame hf))
      (hg frame List.mem_cons_self)

end IgnoreRules.Log.Registry
