/-
# Directories before and behind logging

While runs log to files, only these log files and their backups change.  Whoever keeps away from them
finds everything as it was; and a log file that could be opened before can be opened again, unless
it is a backup of another one.

* `IsStale` : the paths that the backups of log files take;
* `Logged` : the directory before some logging, and the one behind it;
* `Logged.placed_writable_iff` : the same log files can be opened;
* `Logged.bytesOf` : the same files are read;
* `Logged.step` : logging to one more file.
-/
import IgnoreRules.Proofs.LogRotation
import IgnoreRules.Settings

namespace IgnoreRules

/-! ## Errors under a map -/

section

variable {ε ε' α : Type} {f : ε → ε'} {r : Except ε α}

/-- A result that is right under a map of errors was right. -/
theorem mapError_eq_ok {a : α} (h : r.mapError f = .ok a) : r = .ok a := by
  cases r with
  | error e => cases h
  | ok b => exact congrArg Except.ok (Except.ok.inj h)

/-- An error under a map comes from an error. -/
theorem mapError_eq_error {e' : ε'} (h : r.mapError f = .error e') : ∃ e, r = .error e ∧ f e = e' := by
  cases r with
  | error e => exact ⟨e, rfl, Except.error.inj h⟩
  | ok b => cases h

end

namespace Directory

variable {d d' d'' : Directory} {logs logs' : List (List String)} {b p q : List String}

/-! ## Paths that logging takes -/

/-- The path belongs to a backup of one of the log files. -/
def IsStale (logs : List (List String)) (q : List String) : Prop := ∃ b ∈ logs, IsBackup b q

instance (logs : List (List String)) (q : List String) : Decidable (IsStale logs q) :=
  inferInstanceAs (Decidable (∃ b ∈ logs, IsBackup b q))

/-- The path belongs to one of the log files or to a backup of it. -/
def Touched (logs : List (List String)) (q : List String) : Prop := ∃ b ∈ logs, Region b q

theorem IsStale.below (h : IsStale logs p) (hq : p <+: q) : IsStale logs q := by
  obtain ⟨b, hb, hp⟩ := h
  exact ⟨b, hb, hp.below hq⟩

theorem IsStale.mono (h : IsStale logs q) (hsub : logs ⊆ logs') : IsStale logs' q := by
  obtain ⟨b, hb, hq⟩ := h
  exact ⟨b, hsub hb, hq⟩

theorem Touched.mono (h : Touched logs q) (hsub : logs ⊆ logs') : Touched logs' q := by
  obtain ⟨b, hb, hq⟩ := h
  exact ⟨b, hsub hb, hq⟩

/-- What is touched and no backup is a log file, or below one. -/
theorem Touched.exists_log (h : Touched logs q) (hq : ¬IsStale logs q) :
    ∃ b ∈ logs, b <+: q ∧ ¬IsStale logs b := by
  obtain ⟨b, hb, hbq | hback⟩ := h
  · exact ⟨b, hb, hbq, fun hstale => hq (hstale.below hbq)⟩
  · exact absurd ⟨b, hb, hback⟩ hq

/-! ## Looking for files -/

/-- An obstacle, where it does not matter whether a file is in the way or nothing is there. -/
def Obstacle.coarse : Obstacle → Obstacle
  | .notDirectory => .missing
  | o => o

/-- Where no directory is, nobody gets through. -/
theorem coarse_barrier? {e : List String × String} {way : Way}
    (he : d.node? e.1 ≠ some .directory) :
    (d.barrier? (e :: way)).map Obstacle.coarse = some .missing := by
  rw [barrier?]
  split
  · rfl
  · rfl
  · next hdir => exact absurd hdir he

theorem origin_mem_places (d : Directory) (name : String) : d.origin name ∈ d.places name := by
  rw [places, fullPath]
  cases components name with
  | nil => exact List.mem_singleton_self _
  | cons p ps => exact List.mem_append_left _ List.mem_cons_self

theorem fullPath_mem_places (d : Directory) (name : String) : d.fullPath name ∈ d.places name :=
  List.mem_append_right _ (List.mem_singleton_self _)

theorem mem_places_of_mem_way {name : String} {e : List String × String}
    (he : e ∈ wayFrom (d.origin name) (components name)) : e.1 ∈ d.places name :=
  List.mem_append_left _ (List.mem_map_of_mem he)

/-- A name is completed alike where the home directories are the same. -/
theorem expand_of_homes (h : d'.homes = d.homes) (name : String) :
    d'.expand name = d.expand name := by
  rw [expand, expand, h]

theorem fullPath_of_place? {name : String} {path : List String} (h : d.place? name = .ok path) :
    path = d.fullPath name := by
  rw [place?] at h
  split at h
  · cases h
  · exact (Except.ok.inj h).symm

/-- What is read of a file that cannot be looked for. -/
theorem bytesOf_of_error {file name : String} {o : Obstacle}
    (hname : d.expand file = .ok (some name)) (ho : d.place? name = .error o) :
    Settings.bytesOf d file = .error (if o.coarse = .tooLong then .unseen name .tooLong
      else if o.coarse = .denied then .unseen name .denied else .missing file) := by
  rw [Settings.bytesOf, hname]
  dsimp only
  rw [find, ho]
  cases o <;> rfl

/-- What is read of a file depends on where it is looked for and on what is there. -/
theorem bytesOf_of_ok {file name : String} {path : List String}
    (hname : d.expand file = .ok (some name)) (hpath : d.place? name = .ok path) :
    Settings.bytesOf d file = match d.node? path with
      | none => .error (.missing file)
      | some n => if d.allows path .read
          then match n with
            | .file content => .ok content
            | .directory => .error (.unreadable file name .isDirectory)
          else .error (.unreadable file name .denied) := by
  rw [Settings.bytesOf, hname]
  dsimp only
  rw [find, hpath, read, hpath]
  dsimp only
  cases d.node? path with
  | none => rfl
  | some n =>
    dsimp only
    cases d.allows path .read with
    | false => rfl
    | true => cases n <;> rfl

/-- A name leads where it led, if nothing on the way is touched. -/
theorem Same.place?_eq {R : List String → Prop} (h : Same R d d') {name : String}
    (hplaces : ∀ q ∈ d.places name, ¬R q) (hbase : ¬R d.base) :
    d'.place? name = d.place? name := by
  have horigin : d'.origin name = d.origin name := by rw [origin, origin, h.base hbase]
  have hbarrier : d'.barrier? (wayFrom (d.origin name) (components name))
      = d.barrier? (wayFrom (d.origin name) (components name)) := by
    refine barrier?_congr fun e he => ?_
    have hout := hplaces _ (mem_places_of_mem_way he)
    exact ⟨h.node e.1 hout, h.allows e.1 .search hout⟩
  rw [place?, place?, obstacle?, obstacle?, horigin, hbarrier, fullPath_of_base (h.base hbase)]

/-! ## Log files that can be opened -/

/-- No log file is in the place of a directory, unless it is a backup. -/
def NoDirectories (logs : List (List String)) (d : Directory) : Prop :=
  ∀ b ∈ logs, ¬IsStale logs b → d.node? b ≠ some .directory

/-- Nothing above a path that can be reached is touched. -/
theorem NoDirectories.not_touched (hd : NoDirectories logs d) (hp : ¬IsStale logs p)
    (hplaced : Placed p d) (hq : q <+: p) (hne : q = p → p ∉ logs) : ¬Touched logs q := by
  intro htouched
  obtain ⟨b, hb, hbq, hstale⟩ := htouched.exists_log fun h => hp (h.below hq)
  by_cases hbp : b = p
  · subst hbp
    exact hne (hq.eq_of_length_le hbq.length_le) hb
  · exact hd b hb hstale (hplaced.directory_of_ne (hbq.trans hq) hbp)

/-- Where nothing is touched on the way to a log file, it is reached and opened as before. -/
theorem Same.placed_writable_iff {R : List String → Prop} (h : Same R d d')
    (hp : ∀ q, q <+: p → ¬R q) : Placed p d' ∧ Writable p d' ↔ Placed p d ∧ Writable p d := by
  have hself := hp p (List.prefix_refl p)
  have hway : d'.barrier? (wayDown [] p) = d.barrier? (wayDown [] p) := by
    refine barrier?_congr fun e he => ?_
    have hout := hp e.1 (mem_wayDown he).1
    exact ⟨h.node e.1 hout, h.allows e.1 .search hout⟩
  rw [Placed, Placed, hway, writable_iff, writable_iff, h.node p hself,
    h.allows p .write hself, h.allows _ .write (hp _ (List.dropLast_prefix p))]

/-- **The directory before some logging and the one behind it.**  Nothing has changed but log files
and their backups, and these log files could be opened before and can be opened behind. -/
structure Logged (logs : List (List String)) (d d' : Directory) : Prop where
  same : Same (Touched logs) d d'
  before : ∀ b ∈ logs, ¬IsStale logs b → Placed b d ∧ Writable b d
  behind : ∀ b ∈ logs, ¬IsStale logs b → Placed b d' ∧ Usable b d'

theorem Logged.refl (d : Directory) : Logged [] d d where
  same := .refl _ _
  before b hb := by cases hb
  behind b hb := by cases hb

namespace Logged

variable (h : Logged logs d d')
include h

theorem noDirectories_before : NoDirectories logs d :=
  fun b hb hstale => (h.before b hb hstale).2.file

theorem noDirectories_behind : NoDirectories logs d' :=
  fun b hb hstale => (h.behind b hb hstale).2.file

/-- **The same log files can be opened**, but for backups. -/
theorem placed_writable_iff (hp : ¬IsStale logs p) :
    Placed p d' ∧ Writable p d' ↔ Placed p d ∧ Writable p d := by
  by_cases hmem : p ∈ logs
  · obtain ⟨hplaced, husable⟩ := h.behind p hmem hp
    exact iff_of_true ⟨hplaced, husable.writable⟩ (h.before p hmem hp)
  · have hout : Placed p d' ∨ Placed p d → ∀ q, q <+: p → ¬Touched logs q := by
      rintro (hplaced | hplaced) q hq
      · exact h.noDirectories_behind.not_touched hp hplaced hq fun _ => hmem
      · exact h.noDirectories_before.not_touched hp hplaced hq fun _ => hmem
    exact ⟨fun hd => (h.same.placed_writable_iff (hout (Or.inl hd.1))).1 hd,
      fun hd => (h.same.placed_writable_iff (hout (Or.inr hd.1))).2 hd⟩

/-- The same log files can be opened before and behind some logging. -/
theorem openable_iff (hp : ¬IsStale logs p) (name : String) :
    d'.openable name p = .ok () ↔ d.openable name p = .ok () := by
  rw [openable_eq_ok_iff, openable_eq_ok_iff, h.placed_writable_iff hp]

/-! ### Looking for files -/

/-- The working directory has not moved, unless it is in a backup. -/
theorem base_eq (hbase : ¬IsStale logs d'.base) : d'.base = d.base := by
  refine h.same.base fun hin => ?_
  obtain ⟨b, hb, hfront, hstale⟩ := (h.same.inside hin).exists_log hbase
  exact h.noDirectories_behind b hb hstale (node?_of_leadsOn (leadsOn_iff.2 (Or.inl hfront)))

/-- What stands under a path that is no backup is the same, or there is no directory. -/
theorem node?_cases (hq : ¬IsStale logs q) :
    ¬Touched logs q ∨ d.node? q ≠ some .directory ∧ d'.node? q ≠ some .directory := by
  by_cases htouched : Touched logs q
  · obtain ⟨b, hb, hfront, hstale⟩ := htouched.exists_log hq
    refine Or.inr ⟨fun hdir => ?_, fun hdir => ?_⟩
    · exact h.noDirectories_before b hb hstale (directory_of_directory hdir hfront)
    · exact h.noDirectories_behind b hb hstale (directory_of_directory hdir hfront)
  · exact Or.inl htouched

/-- What is no log file and no backup stays what it was. -/
theorem node?_eq (hq : ¬IsStale logs q) (hmem : q ∉ logs) :
    d'.node? q = d.node? q ∧ (d.node? q ≠ none → d'.allows q .read = d.allows q .read) := by
  by_cases htouched : Touched logs q
  · -- below a log file there is nothing
    obtain ⟨b, hb, hfront, hstale⟩ := htouched.exists_log hq
    have hnothing : ∀ e : Directory, NoDirectories logs e → e.node? q = none := by
      intro e he
      refine Option.eq_none_iff_forall_ne_some.2 fun n hn => he b hb hstale ?_
      refine node?_of_leadsOn (leadsOn_of_node? hn hfront ?_)
      rintro rfl
      exact hmem hb
    have hnone := hnothing d h.noDirectories_before
    exact ⟨(hnothing d' h.noDirectories_behind).trans hnone.symm, absurd hnone⟩
  · exact ⟨h.same.node q htouched, fun _ => h.same.allows q .read htouched⟩

/-- The same is in the way, where it does not matter whether a file is there or nothing. -/
theorem barrier?_coarse {way : Way} (hway : ∀ e ∈ way, ¬IsStale logs e.1) :
    (d'.barrier? way).map Obstacle.coarse = (d.barrier? way).map Obstacle.coarse := by
  induction way with
  | nil => rfl
  | cons e way ih =>
    have hrest := ih fun e he => hway e (List.mem_cons_of_mem _ he)
    rcases h.node?_cases (hway e List.mem_cons_self) with hout | ⟨hdir, hdir'⟩
    · rw [barrier?, barrier?, h.same.node _ hout, h.same.allows _ .search hout]
      split
      · rfl
      · rfl
      · split
        · rfl
        · split
          · rfl
          · exact hrest
    · rw [coarse_barrier? hdir, coarse_barrier? hdir']

/-- A name starts where it started, unless that is in a backup. -/
theorem origin_eq {name : String} (horigin : ¬IsStale logs (d'.origin name)) :
    d'.origin name = d.origin name := by
  rw [origin] at horigin ⊢
  rw [origin]
  split at horigin
  · next hroot => rw [if_pos hroot, if_pos hroot]
  · next hroot => rw [if_neg hroot, if_neg hroot, h.base_eq horigin]

/-- A name leads to the same path before and behind some logging. -/
theorem fullPath_eq {name : String} (horigin : ¬IsStale logs (d'.origin name)) :
    d'.fullPath name = d.fullPath name := by
  rw [fullPath, fullPath, h.origin_eq horigin]

/-- A name is obstructed alike before and behind some logging, up to whether what is missing is a
file. -/
theorem place?_coarse {name : String} (hplaces : ∀ q ∈ d'.places name, ¬IsStale logs q) :
    (d'.place? name).mapError Obstacle.coarse = (d.place? name).mapError Obstacle.coarse := by
  have hway : ∀ e ∈ wayFrom (d'.origin name) (components name), ¬IsStale logs e.1 :=
    fun e he => hplaces _ (mem_places_of_mem_way he)
  have hbarrier := h.barrier?_coarse hway
  have horigin := hplaces _ (origin_mem_places d' name)
  rw [h.origin_eq horigin] at hbarrier
  rw [place?, place?, h.origin_eq horigin, h.fullPath_eq horigin, obstacle?, obstacle?]
  cases nameFault? (plainName name) with
  | some o => rfl
  | none =>
    rw [Option.none_or, Option.none_or]
    cases hd : d.barrier? (wayFrom (d.origin name) (components name)) with
    | none =>
      rw [hd, Option.map_none, Option.map_eq_none_iff] at hbarrier
      rw [hbarrier]
    | some o =>
      rw [hd] at hbarrier
      obtain ⟨o', ho', hcoarse⟩ := Option.map_eq_some_iff.1 hbarrier
      rw [ho']
      exact congrArg Except.error hcoarse

/-- **A file is read as before**, unless it is a log file or reached through a backup. -/
theorem bytesOf (file : String)
    (hfile : ∀ name, d'.expand file = .ok (some name) →
      (∀ q ∈ d'.places name, ¬IsStale logs q) ∧ d'.fullPath name ∉ logs) :
    Settings.bytesOf d' file = Settings.bytesOf d file := by
  have hexpand : d'.expand file = d.expand file := expand_of_homes h.same.homes file
  cases hname : d.expand file with
  | error o => rw [Settings.bytesOf, Settings.bytesOf, hexpand, hname]
  | ok name? =>
    cases name? with
    | none => rw [Settings.bytesOf, Settings.bytesOf, hexpand, hname]
    | some name =>
      have hname' := hexpand.trans hname
      obtain ⟨hplaces, hend⟩ := hfile name hname'
      obtain ⟨hnode, hallows⟩ := h.node?_eq (hplaces _ (fullPath_mem_places d' name)) hend
      have hcoarse := h.place?_coarse hplaces
      cases hd' : d'.place? name with
      | error o' =>
        rw [hd'] at hcoarse
        obtain ⟨o, hd, ho⟩ := mapError_eq_error hcoarse.symm
        rw [bytesOf_of_error hname' hd', bytesOf_of_error hname hd, ho]
      | ok path =>
        rw [hd'] at hcoarse
        have hd := mapError_eq_ok hcoarse.symm
        obtain rfl := fullPath_of_place? hd'
        rw [bytesOf_of_ok hname' hd', bytesOf_of_ok hname hd, hnode]
        cases hfound : d.node? (d'.fullPath name) with
        | none => rfl
        | some n =>
          dsimp only
          rw [hallows (by simp [hfound])]

/-! ### Logging on -/

/-- **Logging to one more file**, or once more to one of those before. -/
theorem step (hsub : logs ⊆ logs')
    (hnew : ∀ x ∈ logs', x ∈ logs ∨ x = b ∧ Placed b d' ∧ Writable b d') (hb : b ∈ logs')
    (hne : b ≠ []) (hfile : d'.node? b ≠ some .directory) (hsame : Same (Region b) d' d'')
    (hplaced : Placed b d'') (husable : Usable b d'') : Logged logs' d d'' where
  same := (h.same.mono fun q hq => hq.mono hsub).trans (hsame.mono fun q hq => ⟨b, hb, hq⟩)
  before x hx hstale := by
    have hstale' : ¬IsStale logs x := fun hx => hstale (hx.mono hsub)
    rcases hnew x hx with hx | ⟨rfl, hplaced, hwritable⟩
    · exact h.before x hx hstale'
    · exact (h.placed_writable_iff hstale').1 ⟨hplaced, hwritable⟩
  behind x hx hstale := by
    have hstale' : ¬IsStale logs x := fun hx => hstale (hx.mono hsub)
    by_cases hxb : x = b
    · subst hxb
      exact ⟨hplaced, husable⟩
    · obtain ⟨hplaced, husable⟩ := h.behind x ((hnew x hx).resolve_right fun hx => hxb hx.1) hstale'
      -- the other log file is no backup, and not below the file that is logged to
      have hout : ∀ q, q <+: x → ¬Region b q := by
        rintro q hq (hbq | hback)
        · exact hfile (hplaced.directory_of_ne (hbq.trans hq) (Ne.symm hxb))
        · exact hstale ⟨b, hb, hback.below hq⟩
      exact ⟨((hsame.placed_writable_iff hout).2 ⟨hplaced, husable.writable⟩).1,
        husable.same hsame (hout x (List.prefix_refl x)) (hout _ (List.dropLast_prefix x))⟩

/-- Where nothing is touched, everything stays as it was. -/
theorem of_same (hsame : Same (fun _ => False) d' d'') : Logged logs d d'' where
  same := h.same.trans (hsame.mono fun _ => False.elim)
  before := h.before
  behind x hx hstale := by
    obtain ⟨hplaced, husable⟩ := h.behind x hx hstale
    exact ⟨((hsame.placed_writable_iff fun _ _ => not_false).2 ⟨hplaced, husable.writable⟩).1,
      husable.same hsame not_false not_false⟩

end Logged

end Directory

end IgnoreRules
