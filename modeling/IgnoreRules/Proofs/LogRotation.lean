/-
# What log files change when they make room

A log file changes itself and its backups, and nothing else, whatever fails on the way.  It stays a
file that can be written to, and its streams stay with it or with its backups.

* `IsBackup`, `Region` : the paths that belong to a log file;
* `Usable` : the log file can be opened, and `Leads` : a stream leads to it or to a backup;
* `Kept` : what a step on a log file may do;
* `Keeps.andThen` : steps of this kind make another one, and `Keeps.emit` : adding text is such a
  step;
* `openable_eq_ok_iff`, `kept_make` : a log file that can be opened, and what opening it does.
-/
import IgnoreRules.Log.LogFile
import IgnoreRules.Proofs.FileSteps

namespace IgnoreRules

namespace Directory

variable {d d' d'' : Directory} {b p q path : List String} {parts : List String} {k j s : Nat}

/-! ## Ways -/

/-- A way down passes through what is above its end. -/
theorem mem_wayDown {e : List String × String} (h : e ∈ wayDown path parts) :
    e.1 <+: path ++ parts ∧ e.1 ≠ path ++ parts := by
  induction parts generalizing path with
  | nil => cases h
  | cons c cs ih =>
    rcases List.mem_cons.1 h with rfl | h
    · exact ⟨List.prefix_append _ _, by simp⟩
    · rw [List.append_cons]
      exact ih h

/-- What is in the way depends on what stands on the way. -/
theorem barrier?_congr {way : Way}
    (h : ∀ e ∈ way, d'.node? e.1 = d.node? e.1 ∧ d'.allows e.1 .search = d.allows e.1 .search) :
    d'.barrier? way = d.barrier? way := by
  induction way with
  | nil => rfl
  | cons e way ih =>
    obtain ⟨hnode, hallows⟩ := h e List.mem_cons_self
    rw [barrier?, barrier?, hnode, hallows, ih fun e he => h e (List.mem_cons_of_mem _ he)]

/-- If nothing is in the way, there are directories all the way down. -/
theorem directory_of_barrier? (h : d.barrier? (wayDown path parts) = none) (hq : q <+: parts)
    (hne : q ≠ parts) : d.node? (path ++ q) = some .directory := by
  induction parts generalizing path q with
  | nil => exact absurd (List.prefix_nil.1 hq) hne
  | cons c cs ih =>
    rw [wayDown, barrier?] at h
    split at h
    · cases h
    · cases h
    · next hdir =>
      split at h
      · cases h
      · split at h
        · cases h
        · cases q with
          | nil => rw [List.append_nil, hdir]
          | cons x xs =>
            obtain ⟨rfl, hxs⟩ := List.cons_prefix_cons.1 hq
            rw [List.append_cons]
            exact ih h hxs fun heq => hne (congrArg _ heq)

/-! ## The paths of a log file -/

/-- The path belongs to a backup of a log file. -/
def IsBackup (b q : List String) : Prop := ∃ k ∈ List.range' 1 maxBackups, backup b k <+: q

instance (b q : List String) : Decidable (IsBackup b q) :=
  inferInstanceAs (Decidable (∃ k ∈ List.range' 1 maxBackups, backup b k <+: q))

/-- The path belongs to a log file or to one of its backups. -/
def Region (b q : List String) : Prop := b <+: q ∨ IsBackup b q

instance (b q : List String) : Decidable (Region b q) :=
  inferInstanceAs (Decidable (b <+: q ∨ IsBackup b q))

theorem dropLast_backup (b : List String) (k : Nat) : (backup b k).dropLast = b.dropLast :=
  List.dropLast_concat

theorem backup_ne_nil (b : List String) (k : Nat) : backup b k ≠ [] := List.concat_ne_nil _ _

theorem length_backup (hb : b ≠ []) (k : Nat) : (backup b k).length = b.length := by
  have := List.length_pos_iff.2 hb
  rw [backup, List.length_append, List.length_dropLast, List.length_singleton]
  omega

/-- A backup has another name than the log file. -/
theorem backup_ne (hb : b ≠ []) (k : Nat) : backup b k ≠ b := by
  intro heq
  have hlast : b.getLastD "" = b.getLast hb := by
    rw [List.getLastD_eq_getLast?, List.getLast?_eq_some_getLast hb, Option.getD_some]
  have hsplit : backup b k = b.dropLast ++ [b.getLast hb] := by
    rw [heq, List.dropLast_concat_getLast]
  rw [backup, hlast, List.append_cancel_left_eq, List.singleton_inj] at hsplit
  have hlength := congrArg String.length hsplit
  rw [String.length_append, String.length_append, show ".".length = 1 from rfl] at hlength
  omega

theorem IsBackup.below (h : IsBackup b p) (hq : p <+: q) : IsBackup b q := by
  obtain ⟨k, hk, hp⟩ := h
  exact ⟨k, hk, hp.trans hq⟩

theorem Region.below (h : Region b p) (hq : p <+: q) : Region b q :=
  h.imp (·.trans hq) (·.below hq)

/-- A log file is no backup of itself. -/
theorem not_isBackup_self (hb : b ≠ []) : ¬IsBackup b b := by
  rintro ⟨k, -, hk⟩
  exact backup_ne hb k (hk.eq_of_length (length_backup hb k))

/-- What is around a log file does not belong to it. -/
theorem not_region_of_above (hb : b ≠ []) (hq : q <+: b.dropLast) : ¬Region b q := by
  have hlt : q.length < b.length := by
    have hle := hq.length_le
    have := List.length_pos_iff.2 hb
    rw [List.length_dropLast] at hle
    omega
  rintro (h | ⟨k, -, h⟩)
  · exact absurd h.length_le (Nat.not_le.2 hlt)
  · have hle := h.length_le
    rw [length_backup hb] at hle
    exact absurd hle (Nat.not_le.2 hlt)

/-- Nothing is in the way of the log file. -/
def Placed (b : List String) (d : Directory) : Prop := d.barrier? (wayDown [] b) = none

/-- Whatever leads to a log file is a directory. -/
theorem Placed.directory_of_ne (h : Placed b d) (hq : q <+: b) (hne : q ≠ b) :
    d.node? q = some .directory :=
  directory_of_barrier? h hq hne

/-- What is around a log file is a directory. -/
theorem Placed.directory (h : Placed b d) (hb : b ≠ []) (hq : q <+: b.dropLast) :
    d.node? q = some .directory := by
  refine h.directory_of_ne (hq.trans (List.dropLast_prefix b)) ?_
  rintro rfl
  exact dropLast_ne hb ((List.dropLast_prefix q).eq_of_length_le hq.length_le)

/-- Changes of a log file leave it where it is. -/
theorem Placed.same (h : Placed b d) (hb : b ≠ []) (hsame : Same (Region b) d d') :
    Placed b d' := by
  rw [Placed, barrier?_congr, h]
  intro e he
  obtain ⟨hfront, hne⟩ := mem_wayDown he
  have hout := not_region_of_above hb (prefix_dropLast hfront hne)
  exact ⟨hsame.node e.1 hout, hsame.allows e.1 .search hout⟩

/-- Whatever leads to a log file is a directory, so that all below it is a region of its own. -/
theorem Placed.enclosed_below (h : Placed p d) : Enclosed (p <+: ·) d where
  below _ _ := List.IsPrefix.trans
  above _ q hpr hqr hq := by
    rcases List.prefix_or_prefix_of_prefix hqr hpr with hqp | hpq
    · refine h.directory_of_ne hqp ?_
      rintro rfl
      exact hq (List.prefix_refl _)
    · exact absurd hpq hq

/-- Whatever leads to the backups is a directory, so that they are a region of their own. -/
theorem Placed.enclosed_backups (h : Placed b d) (hb : b ≠ []) : Enclosed (IsBackup b) d where
  below p q hp hq := hp.below hq
  above p q hp hqp hq := by
    obtain ⟨k, hk, hkp⟩ := hp
    rcases List.prefix_or_prefix_of_prefix hqp hkp with hqk | hkq
    · refine h.directory hb ?_
      rw [← dropLast_backup b k]
      refine prefix_dropLast hqk ?_
      rintro rfl
      exact hq ⟨k, hk, List.prefix_refl _⟩
    · exact absurd ⟨k, hk, hkq⟩ hq

/-- Whatever leads to a log file and its backups is a directory. -/
theorem Placed.enclosed (h : Placed b d) (hb : b ≠ []) : Enclosed (Region b) d where
  below p q hp hq := hp.below hq
  above p q hp hqp hq := by
    rcases hp with hp | hp
    · exact h.enclosed_below.above p q hp hqp fun hbelow => hq (Or.inl hbelow)
    · exact (h.enclosed_backups hb).above p q hp hqp fun hback => hq (Or.inr hback)

/-! ## Steps on a log file -/

/-- The log file can be written to if it is there, and else it can be made. -/
structure Writable (b : List String) (d : Directory) : Prop where
  file : d.node? b ≠ some .directory
  write : d.node? b ≠ none → d.allows b .write = true
  make : d.node? b = none → d.allows b.dropLast .write = true

theorem writable_iff : Writable b d ↔
    d.node? b ≠ some .directory ∧ (d.node? b ≠ none → d.allows b .write = true) ∧
      (d.node? b = none → d.allows b.dropLast .write = true) :=
  ⟨fun h => ⟨h.file, h.write, h.make⟩, fun ⟨hfile, hwrite, hmake⟩ => ⟨hfile, hwrite, hmake⟩⟩

/-- The log file can be written to, even if it has to be made first. -/
structure Usable (b : List String) (d : Directory) : Prop where
  file : d.node? b ≠ some .directory
  write : d.allows b .write = true
  make : d.node? b = none → d.allows b.dropLast .write = true

/-- A log file that can be used can be written to. -/
theorem Usable.writable (h : Usable b d) : Writable b d := ⟨h.file, fun _ => h.write, h.make⟩

/-- The file of a stream is the log file or one of its backups, if it still has a path. -/
def Leads (b : List String) (d : Directory) (s : Nat) : Prop :=
  ∀ p, d.stream s = .under p → p = b ∨ IsBackup b p

/-- **What a step on a log file may do.**  Only the paths of the log file are touched, it stays
usable, and the streams that lead to it go on doing so. -/
structure Kept (b : List String) (d d' : Directory) : Prop where
  same : Same (Region b) d d'
  usable : Usable b d → Usable b d'
  leads : ∀ s, Leads b d s → Leads b d' s

protected theorem Kept.refl (b : List String) (d : Directory) : Kept b d d :=
  ⟨.refl _ _, id, fun _ => id⟩

protected theorem Kept.trans (h : Kept b d d') (h' : Kept b d' d'') : Kept b d d'' :=
  ⟨h.same.trans h'.same, fun hu => h'.usable (h.usable hu), fun s hs => h'.leads s (h.leads s hs)⟩

/-- What a step may do that concerns one log file, or none at all. -/
structure KeptBy (b? : Option (List String)) (d d' : Directory) : Prop where
  same : Same (fun q => ∃ b ∈ b?, Region b q) d d'
  kept : ∀ b ∈ b?, Kept b d d'

protected theorem KeptBy.refl (b? : Option (List String)) (d : Directory) : KeptBy b? d d :=
  ⟨.refl _ _, fun b _ => .refl b d⟩

protected theorem KeptBy.trans {b? : Option (List String)} (h : KeptBy b? d d')
    (h' : KeptBy b? d' d'') : KeptBy b? d d'' :=
  ⟨h.same.trans h'.same, fun b hb => (h.kept b hb).trans (h'.kept b hb)⟩

/-- Without a log file nothing changes at all. -/
theorem KeptBy.of_none (h : KeptBy none d d') : Same (fun _ => False) d d' :=
  h.same.mono fun q hq => by
    obtain ⟨b, hb, -⟩ := hq
    cases hb

theorem Kept.by (h : Kept b d d') : KeptBy (some b) d d' where
  same := h.same.mono fun q hq => ⟨b, rfl, hq⟩
  kept c hc := by
    cases hc
    exact h

/-- A log file stays usable while nothing happens to it and to the directory around it. -/
theorem Usable.same {R : List String → Prop} (h : Usable b d) (hsame : Same R d d') (hb : ¬R b)
    (haround : ¬R b.dropLast) : Usable b d' where
  file := by
    rw [hsame.node b hb]
    exact h.file
  write := by
    rw [hsame.allows b .write hb]
    exact h.write
  make hnone := by
    rw [hsame.node b hb] at hnone
    rw [hsame.allows _ .write haround]
    exact h.make hnone

/-- A step on the backups alone. -/
theorem Kept.of_backups (hb : b ≠ []) (h : Same (IsBackup b) d d')
    (hleads : ∀ s, Leads b d s → Leads b d' s) : Kept b d d' where
  same := h.mono fun _ => Or.inr
  usable hu := hu.same h (not_isBackup_self hb) fun hback =>
    not_region_of_above hb (List.prefix_refl _) (Or.inr hback)
  leads := hleads

/-- A step on streams alone. -/
theorem Kept.of_same (h : Same (fun _ => False) d d') (hleads : ∀ s, Leads b d s → Leads b d' s) :
    Kept b d d' where
  same := h.mono fun _ => False.elim
  usable hu := hu.same h not_false not_false
  leads := hleads

/-- A step for a stream keeps the log file that this leads to. -/
def Keeps (b : List String) (s : Nat) (f : FileStep) : Prop :=
  ∀ d, Placed b d → Leads b d s → Kept b d (f d).1

theorem Keeps.id (b : List String) (s : Nat) : Keeps b s fun d => (d, true) :=
  fun d _ _ => .refl b d

/-- Two steps after each other keep what each of them keeps. -/
theorem Keeps.andThen {f g : FileStep} (hb : b ≠ []) (hf : Keeps b s f) (hg : Keeps b s g) :
    Keeps b s (f.andThen g) := by
  intro d hd hs
  have hfirst := hf d hd hs
  rw [FileStep.andThen]
  split
  · next e heq =>
    rw [heq] at hfirst
    exact hfirst.trans (hg e (hd.same hb hfirst.same) (hfirst.leads s hs))
  · next e heq =>
    rw [heq] at hfirst
    exact hfirst

/-! ### Streams -/

/-- Where a stream leads after one of them was led elsewhere. -/
theorem stream_setStream (d : Directory) (s : Nat) (v : Stream) (t : Nat) :
    (d.setStream s v).stream t = if s = t ∧ s < d.streams.length then v else d.stream t := by
  rw [stream, setStream, List.getElem?_set]
  by_cases hst : s = t
  · subst hst
    by_cases hs : s < d.streams.length
    · simp [hs]
    · simp [hs, stream]
  · simp [hst, stream]

/-- A stream may be led to the log file, to a backup, or nowhere. -/
theorem Leads.setStream (h : Leads b d s) {v : Stream}
    (hv : ∀ p, v = .under p → p = b ∨ IsBackup b p) (t : Nat) : Leads b (d.setStream t v) s := by
  intro p hp
  rw [stream_setStream] at hp
  split at hp
  · exact hv p hp
  · exact h p hp

theorem Leads.of_streams (h : Leads b d s) (hstreams : d'.streams = d.streams) :
    Leads b d' s := by
  intro p hp
  rw [stream, hstreams] at hp
  exact h p hp

/-- Where the files of streams are moved, the streams go with them. -/
theorem Leads.map (h : Leads b d s) {f : Stream → Stream}
    (hstreams : d'.streams = d.streams.map f) (hclosed : f .closed = .closed)
    (hf : ∀ v p, f v = .under p →
      ∃ q, v = .under q ∧ (q = b ∨ IsBackup b q → p = b ∨ IsBackup b p)) :
    Leads b d' s := by
  intro p hp
  have hstream : d'.stream s = f (d.stream s) := by
    rw [stream, stream, hstreams, List.getElem?_map]
    cases d.streams[s]? with
    | none => exact hclosed.symm
    | some v => rfl
  rw [hstream] at hp
  obtain ⟨q, hq, himp⟩ := hf _ p hp
  exact himp (h q hq)

/-- A file that becomes a backup takes its streams along. -/
theorem Leads.rename (h : Leads b d s) {source target : List String}
    (htarget : IsBackup b target) : Leads b (d.rename source target) s := by
  refine h.map (f := Stream.moved source target) rfl rfl ?_
  intro v p hv
  cases v with
  | under q =>
    cases hv
    refine ⟨q, rfl, fun hq => ?_⟩
    by_cases hfront : source <+: q
    · rw [movedPath_of_below hfront]
      exact Or.inr (htarget.below (List.prefix_append _ _))
    · rwa [movedPath_of_not_below hfront]
  | removed n => cases hv
  | closed => cases hv

/-- A file that is removed leaves no stream under its path. -/
theorem Leads.remove (h : Leads b d s) (path : List String) (content : ByteArray) :
    Leads b (d.remove path content) s := by
  refine h.map (f := Stream.dropped path d.removed.length) rfl rfl ?_
  intro v p hv
  cases v with
  | under q =>
    rw [Stream.dropped] at hv
    split at hv
    · cases hv
    · cases hv
      exact ⟨p, rfl, fun hq => hq⟩
  | removed n => cases hv
  | closed => cases hv

/-! ### The steps -/

/-- What is seen is there. -/
theorem node?_of_seen? (h : d.seen? p = some n) : d.node? p = some n := by
  rw [seen?] at h
  split at h
  · cases h
  · exact h

theorem not_directory_of_file {content : ByteArray} (h : d.node? b = some (.file content)) :
    d.node? b ≠ some .directory := by
  rw [h]
  simp

/-- Removing a backup keeps the log file. -/
theorem Keeps.clear (hb : b ≠ []) (hp : IsBackup b p) (hne : p ≠ []) : Keeps b s (clear p) := by
  intro d hd _
  rw [Directory.clear]
  split
  · exact .refl b d
  · exact .refl b d
  · next content hseen =>
    split
    · exact .of_backups hb (.remove hp hne (node?_of_seen? hseen) content)
        fun s hs => hs.remove p content
    · exact .refl b d

/-- What moving does: nothing, or it moves what stands there. -/
theorem move_cases (source target : List String) (d : Directory) :
    (move source target d).1 = d ∨
      (∃ n, d.node? source = some n) ∧ d.allows source.dropLast .write = true ∧
        (move source target d).1 = d.rename source target := by
  rw [move]
  split
  · exact Or.inl rfl
  · next hseen =>
    split
    · exact Or.inl rfl
    · split
      · next hallowed =>
        rw [Option.isNone_iff_eq_none, ← ne_eq, Option.ne_none_iff_exists'] at hseen
        obtain ⟨n, hn⟩ := hseen
        exact Or.inr ⟨⟨n, node?_of_seen? hn⟩, hallowed, rfl⟩
      · exact Or.inl rfl

/-- Moving a backup to the place of another one keeps the log file. -/
theorem Keeps.move (hb : b ≠ []) (hj : j ∈ List.range' 1 maxBackups)
    (hk : k ∈ List.range' 1 maxBackups) : Keeps b s (move (backup b j) (backup b k)) := by
  intro d hd _
  have hbackup : ∀ {i}, i ∈ List.range' 1 maxBackups → IsBackup b (backup b i) :=
    fun hi => ⟨_, hi, List.prefix_refl _⟩
  rcases move_cases (backup b j) (backup b k) d with heq | ⟨⟨n, hn⟩, -, heq⟩
  · rw [heq]
    exact .refl b d
  · rw [heq]
    refine .of_backups hb ?_ fun s hs => hs.rename (hbackup hk)
    refine .rename (hd.enclosed_backups hb) (hbackup hj) (hbackup hk) (backup_ne_nil b j) ?_ hn
    rw [dropLast_backup, dropLast_backup]

/-- What is moved away is not there any more. -/
theorem not_prefix_movedPath {source target : List String} (hlength : source.length = target.length)
    (hne : source ≠ target) (p : List String) : ¬source <+: movedPath source target p := by
  by_cases hp : source <+: p
  · rw [movedPath_of_below hp]
    intro h
    exact hne ((List.prefix_of_prefix_length_le h (List.prefix_append _ _)
      (Nat.le_of_eq hlength)).eq_of_length hlength)
  · rwa [movedPath_of_not_below hp]

/-- Nothing is left where something was moved away. -/
theorem node?_rename_self {source target : List String} (hlength : source.length = target.length)
    (hne : source ≠ target) (d : Directory) : (d.rename source target).node? source = none := by
  have haway := not_prefix_movedPath hlength hne
  have hleads : ¬((d.rename source target).leadsOn source = true) := by
    rw [leadsOn_iff]
    rintro (hbase | ⟨e, he, hfront, -⟩)
    · exact haway _ hbase
    · obtain ⟨e, -, rfl⟩ := List.mem_map.1 he
      exact haway _ hfront
  rw [node?, if_neg hleads]
  cases hlookup : (d.rename source target).nodes.lookup source with
  | none => rfl
  | some n =>
    obtain ⟨e, -, heq⟩ := List.mem_map.1 (mem_of_lookup hlookup)
    have haway' := haway e.1
    rw [(Prod.mk.inj heq).1] at haway'
    exact absurd (List.prefix_refl _) haway'

/-- Nothing is refused where something was moved away. -/
theorem allows_rename_self {source target : List String} (hlength : source.length = target.length)
    (hne : source ≠ target) (d : Directory) (access : Access) :
    (d.rename source target).allows source access = true := by
  rw [allows, Bool.not_eq_true', ← Bool.not_eq_true, List.contains_iff_mem]
  intro hmem
  obtain ⟨e, -, heq⟩ := List.mem_map.1 hmem
  have haway := not_prefix_movedPath hlength hne e.1
  rw [(Prod.mk.inj heq).1] at haway
  exact haway (List.prefix_refl _)

/-- The log file becomes its own first backup. -/
theorem Keeps.move_self (hb : b ≠ []) (hk : k ∈ List.range' 1 maxBackups) :
    Keeps b s (Directory.move b (backup b k)) := by
  intro d hd _
  have hbackup : IsBackup b (backup b k) := ⟨k, hk, List.prefix_refl _⟩
  have hlength := (length_backup hb k).symm
  rcases move_cases b (backup b k) d with heq | ⟨⟨n, hn⟩, hallowed, heq⟩
  · rw [heq]
    exact .refl b d
  · have hsame : Same (Region b) d (d.rename b (backup b k)) :=
      .rename (hd.enclosed hb) (Or.inl (List.prefix_refl _)) (Or.inr hbackup) hb
        (dropLast_backup b k).symm hn
    rw [heq]
    -- what was refused for the file is refused for the backup now
    refine ⟨hsame, fun _ => ⟨?_, allows_rename_self hlength (backup_ne hb k).symm d .write, ?_⟩,
      fun s hs => hs.rename hbackup⟩
    · rw [node?_rename_self hlength (backup_ne hb k).symm]
      simp
    · intro _
      rw [hsame.allows _ .write (not_region_of_above hb (List.prefix_refl _))]
      exact hallowed

theorem kept_close (b : List String) (d : Directory) (t : Nat) : Kept b d (d.close t) :=
  .of_same (.of_eq rfl rfl rfl rfl) fun _ hs => hs.setStream (by simp) t

theorem Keeps.closing (b : List String) (t : Nat) : Keeps b s (closing t) :=
  fun d _ _ => kept_close b d t

/-- **A log file can be opened** if its name can be looked up, nothing is in the way, and the file
can be written to or made. -/
theorem openable_eq_ok_iff {name : String} :
    d.openable name p = .ok () ↔ nameFault? name = none ∧ Placed p d ∧ Writable p d := by
  have hway : d.obstacle? name (wayDown [] p) = none ↔ nameFault? name = none ∧ Placed p d :=
    Option.or_eq_none_iff
  rw [openable]
  split
  · next o ho =>
    refine iff_of_false (by simp) fun h => ?_
    cases ho.symm.trans (hway.2 ⟨h.1, h.2.1⟩)
  · next ho =>
    obtain ⟨hname, hplaced⟩ := hway.1 ho
    split
    · next hdir => exact iff_of_false (by simp) fun h => h.2.2.file hdir
    · next content hfile =>
      split
      · next hallowed =>
        refine iff_of_true rfl ⟨hname, hplaced, not_directory_of_file hfile, fun _ => hallowed, ?_⟩
        exact fun hnone => by cases hnone.symm.trans hfile
      · next hdenied =>
        exact iff_of_false (by simp) fun h => hdenied (h.2.2.write (by simp [hfile]))
    · next hnone =>
      split
      · next hallowed =>
        exact iff_of_true rfl ⟨hname, hplaced, by simp [hnone], absurd hnone, fun _ => hallowed⟩
      · next hdenied => exact iff_of_false (by simp) fun h => hdenied (h.2.2.make hnone)

/-- **Opening a log file makes it usable**, and changes nothing else. -/
theorem kept_make (hb : b ≠ []) (hd : Placed b d) (hw : Writable b d) :
    Kept b d (d.make b) ∧ Usable b (d.make b) := by
  cases hnode : d.node? b with
  | some n =>
    rw [Directory.make, hnode]
    exact ⟨.refl b d, hw.file, hw.write (by simp [hnode]), hw.make⟩
  | none =>
    have hsame : Same (Region b) d (d.make b) :=
      .make (hd.enclosed hb) (Or.inl (List.prefix_refl _))
    have hmake : d.make b = ((d.free b).write b (.file .empty)).note (.make b) := by
      rw [Directory.make, hnode]
    have hleads : (d.free b).leadsOn b = false := by
      rw [← Bool.not_eq_true]
      intro hleads
      cases hnode.symm.trans (node?_of_leadsOn hleads)
    have husable : Usable b (d.make b) := by
      rw [hmake]
      refine ⟨not_directory_of_file (node?_write_self hleads _), allows_free_self d b .write, ?_⟩
      intro hnone
      cases hnone.symm.trans (node?_write_self hleads _)
    refine ⟨⟨hsame, fun _ => husable, fun s hs => hs.of_streams ?_⟩, husable⟩
    rw [hmake]
    rfl

/-- Closing streams changes no files. -/
theorem closeAll_keptBy (b? : Option (List String)) (d : Directory) (ts : List Nat) :
    KeptBy b? d (ts.foldl close d) ∧ (ts.foldl close d).base = d.base := by
  induction ts generalizing d with
  | nil => exact ⟨.refl b? d, rfl⟩
  | cons t ts ih =>
    obtain ⟨hkept, hbase⟩ := ih (d.close t)
    have hfirst : KeptBy b? d (d.close t) :=
      ⟨.of_eq rfl rfl rfl rfl, fun b _ => kept_close b d t⟩
    exact ⟨hfirst.trans hkept, hbase⟩

theorem Keeps.reopen (hb : b ≠ []) (t : Nat) : Keeps b s (reopen b t) := by
  intro d hd _
  rw [Directory.reopen]
  split
  · exact .refl b d
  · next hopen =>
    obtain ⟨hkept, -⟩ := kept_make hb hd (openable_eq_ok_iff.1 hopen).2.2
    refine hkept.trans (.of_same (.of_eq rfl rfl rfl rfl) fun s hs => hs.setStream ?_ t)
    rintro p hp
    cases hp
    exact Or.inl rfl

/-- Moving one backup over another keeps the log file. -/
theorem Keeps.moveOver (hb : b ≠ []) (hj : j ∈ List.range' 1 maxBackups)
    (hk : k ∈ List.range' 1 maxBackups) : Keeps b s (moveOver (backup b j) (backup b k)) := by
  intro d hd hs
  rw [Directory.moveOver]
  split
  · exact .refl b d
  · have hclear : Keeps b s (Directory.clear (backup b k)) :=
      clear hb ⟨k, hk, List.prefix_refl _⟩ (backup_ne_nil b k)
    exact hclear.andThen hb (move hb hj hk) d hd hs

/-- **Moving the backups on keeps the log file**, by induction on the numbers of the backups. -/
theorem Keeps.moveBackups (hb : b ≠ []) {ks : List Nat}
    (hks : ∀ k ∈ ks, k ∈ List.range' 1 maxBackups ∧ k + 1 ∈ List.range' 1 maxBackups) :
    Keeps b s (moveBackups b ks) := by
  induction ks with
  | nil => exact .id b s
  | cons k ks ih =>
    obtain ⟨hk, hk'⟩ := hks k List.mem_cons_self
    exact (moveOver hb hk hk').andThen hb (ih fun j hj => hks j (List.mem_cons_of_mem k hj))

/-- **Making room** changes a log file and its backups. -/
theorem Keeps.rollOver (hb : b ≠ []) (s : Nat) : Keeps b s (rollOver b s) := by
  have hfirst : (1 : Nat) ∈ List.range' 1 maxBackups := by decide
  have hbackups : Keeps b s (Directory.moveBackups b ((List.range' 1 (maxBackups - 1)).reverse)) :=
    moveBackups hb (by decide)
  have hclear : Keeps b s (Directory.clear (backup b 1)) :=
    clear hb ⟨1, hfirst, List.prefix_refl _⟩ (backup_ne_nil b 1)
  exact (closing b s).andThen hb <| hbackups.andThen hb <| hclear.andThen hb <|
    (move_self hb hfirst).andThen hb (reopen hb s)

/-- Making room keeps the log file, whether it was full or not. -/
theorem Keeps.makeRoom (hb : b ≠ []) (s : Nat) (text : String) :
    Keeps b s (makeRoom b s text) := by
  intro d hd hs
  rw [Directory.makeRoom]
  split
  · exact .refl b d
  · split
    · exact rollOver hb s d hd hs
    · exact .refl b d

/-- Opening a stream that was closed keeps the log file. -/
theorem Keeps.ensureOpen (hb : b ≠ []) (s : Nat) : Keeps b s (ensureOpen b s) := by
  intro d hd hs
  rw [Directory.ensureOpen]
  split
  · exact reopen hb s d hd hs
  · exact .refl b d

/-- Text that is added through a stream stands at the end of the file. -/
theorem node?_append_self (hs : d.stream s = .under p) (hp : d.node? p ≠ some .directory)
    (text : String) :
    (d.append s text).node? p = some (.file (d.contentOf s ++ text.toUTF8)) := by
  have hleads : d.leadsOn p = false := by
    rw [← Bool.not_eq_true]
    exact fun hleads => hp (node?_of_leadsOn hleads)
  rw [append, hs]
  exact node?_write_self hleads _

/-- Text that is added through a stream stays in the log file or its backups. -/
theorem Keeps.append (hb : b ≠ []) (s : Nat) (text : String) :
    Keeps b s fun d => (d.append s text, true) := by
  intro d hd hs
  dsimp only
  rw [Directory.append]
  split
  · next p hp =>
    rcases hs p hp with rfl | hback
    · have hsame : Same (Region p) d (d.write p (.file (d.contentOf s ++ text.toUTF8))) :=
        .write (hd.enclosed hb) (Or.inl (List.prefix_refl _)) _
      refine ⟨hsame.trans (.of_eq rfl rfl rfl rfl), fun hu => ?_, fun t ht => ht.of_streams rfl⟩
      have hfile := node?_append_self hp hu.file text
      rw [Directory.append, hp] at hfile
      refine ⟨not_directory_of_file hfile, hu.write, fun hnone => ?_⟩
      cases hnone.symm.trans hfile
    · -- the stream stayed with a file that has become a backup
      have hsame : Same (IsBackup b) d (d.write p (.file (d.contentOf s ++ text.toUTF8))) :=
        .write (hd.enclosed_backups hb) hback _
      exact .of_backups hb (hsame.trans (.of_eq rfl rfl rfl rfl)) fun t ht => ht.of_streams rfl
  · exact .of_backups hb (.of_eq rfl rfl rfl rfl) fun t ht => ht.of_streams rfl
  · exact .refl b d

/-- **What is logged changes the log file and its backups, and nothing else.** -/
theorem Keeps.emit (hb : b ≠ []) (s : Nat) (text : String) : Keeps b s (emit b s text) :=
  (ensureOpen hb s).andThen hb ((makeRoom hb s text).andThen hb (append hb s text))

/-- What is logged through an open stream is added when room is made. -/
theorem emit_of_open {text : String} (hs : d.stream s ≠ .closed)
    (hroom : makeRoom b s text d = (d', true)) : (emit b s text d).1 = d'.append s text := by
  rw [emit, FileStep.andThen, ensureOpen, if_neg hs]
  dsimp only
  rw [FileStep.andThen, hroom]

/-- A file that is large enough by itself is full, whatever is to be added. -/
theorem isFull_of_size {content : ByteArray} (hs : d.stream s = .under p)
    (hp : d.node? p = some (.file content)) (hsize : maxLogBytes ≤ content.size) (text : String) :
    d.isFull s text = true := by
  have hcontent : d.contentOf s = content := by
    rw [contentOf, hs]
    dsimp only
    rw [hp]
  rw [isFull, hcontent]
  exact decide_eq_true (Nat.le_trans hsize (Nat.le_add_right _ _))

/-- A log file that is full makes room, unless a directory is seen in its place. -/
theorem makeRoom_of_full {text : String} (hb : d.seen? b ≠ some .directory)
    (h : d.isFull s text = true) : makeRoom b s text d = rollOver b s d := by
  rw [makeRoom, if_neg hb, if_pos h]

/-- The root is no file. -/
theorem Writable.ne_nil (h : Writable p d) : p ≠ [] := by
  rintro rfl
  exact h.file (node?_of_leadsOn (leadsOn_iff.2 (Or.inl (List.nil_prefix))))

/-- Making a file changes nothing that is there. -/
theorem Placed.node?_make (h : Placed p d) (hq : d.node? q = some n) :
    (d.make p).node? q = some n := by
  cases hp : d.node? p with
  | some m => rwa [make, hp]
  | none =>
    refine ((Same.make h.enclosed_below (List.prefix_refl p)).node q fun hpq => ?_).trans hq
    -- nothing stands below a path where nothing stands
    by_cases hne : p = q
    · cases hp.symm.trans (hne ▸ hq)
    · cases hp.symm.trans (node?_of_leadsOn (leadsOn_of_node? hq hpq hne))

/-- Text that is added through a stream changes nothing but its file. -/
theorem Placed.same_append (h : Placed p d) (hs : d.stream s = .under p) (text : String) :
    Same (p <+: ·) d (d.append s text) := by
  rw [append, hs]
  exact (Same.write h.enclosed_below (List.prefix_refl p) _).trans (.of_eq rfl rfl rfl rfl)

theorem base_make (d : Directory) (path : List String) : (d.make path).base = d.base := by
  rw [make]
  split <;> rfl

/-- Adding a stream moves no other one. -/
theorem stream_addStream (d : Directory) (v : Stream) (t : Nat) :
    (d.addStream v).stream t = if t = d.streams.length then v else d.stream t := by
  rw [stream, addStream]
  rcases Nat.lt_trichotomy t d.streams.length with ht | rfl | ht
  · rw [List.getElem?_append_left ht, if_neg (Nat.ne_of_lt ht), stream]
  · rw [List.getElem?_concat_length, if_pos rfl]
    rfl
  · have hfar : (d.streams ++ [v]).length ≤ t := by
      rw [List.length_append]
      exact ht
    rw [if_neg (Nat.ne_of_gt ht), stream, List.getElem?_eq_none hfar,
      List.getElem?_eq_none (Nat.le_of_lt ht)]

/-- A name leads to the same path from the same directory. -/
theorem fullPath_of_base (h : d'.base = d.base) (name : String) :
    d'.fullPath name = d.fullPath name := by
  rw [fullPath, fullPath, origin, origin, h]

theorem fullName_of_base (h : d'.base = d.base) (name : String) :
    d'.fullName name = d.fullName name := by
  rw [fullName, fullName, fullPath_of_base h]

/-- One more stream that leads to the log file changes nothing else. -/
theorem kept_addStream (b : List String) (d : Directory) :
    Kept b d (d.addStream (.under b)) ∧ Leads b (d.addStream (.under b)) d.streams.length := by
  have hself : ∀ p, Stream.under b = .under p → p = b ∨ IsBackup b p := by
    rintro p hp
    cases hp
    exact Or.inl rfl
  refine ⟨.of_same (.of_eq rfl rfl rfl rfl) fun t ht p hp => ?_, fun p hp => ?_⟩
  · rw [stream_addStream] at hp
    split at hp
    · exact hself p hp
    · exact ht p hp
  · rw [stream_addStream, if_pos rfl] at hp
    exact hself p hp

/-- Where no path is touched, the same can be opened. -/
theorem openable_same (h : Same (fun _ => False) d d') (name : String) (p : List String) :
    d'.openable name p = d.openable name p := by
  have hway : d'.barrier? (wayDown [] p) = d.barrier? (wayDown [] p) :=
    barrier?_congr fun e _ => ⟨h.node e.1 not_false, h.allows e.1 .search not_false⟩
  rw [openable, openable, obstacle?, obstacle?, hway, h.node p not_false,
    h.allows p .write not_false, h.allows p.dropLast .write not_false]

/-- What opening does: it makes sure that the file is there, and adds a stream that leads to it. -/
theorem openToAppend_cases {name : String} (h : d.openToAppend name = .ok (s, d')) :
    d.openable (d.fullName name) (d.fullPath name) = .ok () ∧
      s = (d.make (d.fullPath name)).streams.length ∧
      d' = (d.make (d.fullPath name)).addStream (.under (d.fullPath name)) := by
  rw [openToAppend] at h
  split at h
  · cases h
  · next hopen =>
    cases h
    exact ⟨hopen, rfl, rfl⟩

/-- A file that can be opened is opened. -/
theorem exists_openToAppend {name : String}
    (h : d.openable (d.fullName name) (d.fullPath name) = .ok ()) :
    ∃ s d', d.openToAppend name = .ok (s, d') := by
  rw [openToAppend, h]
  exact ⟨_, _, rfl⟩

section

variable {name : String} (h : d.openToAppend name = .ok (s, d'))
include h

theorem base_openToAppend : d'.base = d.base := by
  obtain ⟨-, -, hd⟩ := openToAppend_cases h
  exact (congrArg Directory.base hd).trans (base_make d _)

/-- **Opening a log file** changes nothing else, and gives a stream that leads to it. -/
theorem kept_openToAppend :
    Kept (d.fullPath name) d d' ∧ Usable (d.fullPath name) d' ∧ Leads (d.fullPath name) d' s := by
  obtain ⟨hopen, hs, hd⟩ := openToAppend_cases h
  obtain ⟨-, hplaced, hwritable⟩ := openable_eq_ok_iff.1 hopen
  obtain ⟨hkept, husable⟩ := kept_make hwritable.ne_nil hplaced hwritable
  obtain ⟨hadded, hleads⟩ := kept_addStream (d.fullPath name) (d.make (d.fullPath name))
  rw [hs, hd]
  exact ⟨hkept.trans hadded, hadded.usable husable, hleads⟩

/-- Whatever was there before a log file was opened stays as it was. -/
theorem node?_openToAppend (hq : d.node? q = some n) : d'.node? q = some n := by
  obtain ⟨hopen, -, hd⟩ := openToAppend_cases h
  obtain ⟨-, hplaced, -⟩ := openable_eq_ok_iff.1 hopen
  have hadded : d'.node? q = (d.make (d.fullPath name)).node? q := by rw [hd]; rfl
  rw [hadded]
  exact hplaced.node?_make hq

/-- A log file that was opened can be opened again. -/
theorem openable_again : d'.openable (d'.fullName name) (d'.fullPath name) = .ok () := by
  obtain ⟨hkept, husable, -⟩ := kept_openToAppend h
  obtain ⟨hopen, -, -⟩ := openToAppend_cases h
  obtain ⟨hname, hplaced, hwritable⟩ := openable_eq_ok_iff.1 hopen
  rw [fullName_of_base (base_openToAppend h), fullPath_of_base (base_openToAppend h)]
  exact openable_eq_ok_iff.2
    ⟨hname, hplaced.same hwritable.ne_nil hkept.same, husable.writable⟩

end

end Directory

end IgnoreRules
