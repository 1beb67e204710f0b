/-
# What steps on files leave alone

A step on files changes what stands under some paths.  Where everything on the way to these paths is
a directory, and everything below them belongs to them, no other path is touched.

* `Enclosed` : the paths that steps may change, with nothing but directories around them;
* `Same` : nothing has changed but what stands under such paths;
* `Same.write`, `Same.make`, `Same.rename`, `Same.remove` : each change of files touches only its
  own paths.
-/
import IgnoreRules.Directory

namespace IgnoreRules

/-! ## Lists with keys -/

section

variable {α β : Type} [BEq α] [LawfulBEq α] {es : List (α × β)} {k : α}

/-- Leaving out one key hides no other. -/
theorem lookup_filter_ne [DecidableEq α] (es : List (α × β)) {key : α} (hk : k ≠ key) :
    (es.filter fun e => e.1 ≠ key).lookup k = es.lookup k := by
  induction es with
  | nil => rfl
  | cons e es ih =>
    obtain ⟨k', v⟩ := e
    by_cases he : k' = key
    · -- the entry that is left out is not the one that is looked for
      have hbeq : (k == k') = false := beq_eq_false_iff_ne.2 fun heq => hk (heq.trans he)
      rw [List.filter_cons_of_neg (by simpa using he), ih, List.lookup_cons, hbeq]
    · rw [List.filter_cons_of_pos (by simpa using he), List.lookup_cons, List.lookup_cons, ih]

theorem mem_of_lookup {v : β} (h : es.lookup k = some v) : (k, v) ∈ es := by
  induction es with
  | nil => cases h
  | cons e es ih =>
    obtain ⟨k', v'⟩ := e
    rw [List.lookup_cons] at h
    split at h
    · next hbeq =>
      obtain rfl : k = k' := eq_of_beq hbeq
      cases h
      exact List.mem_cons_self
    · exact List.mem_cons_of_mem _ (ih h)

end

namespace Directory

variable {d d' d'' : Directory} {R R' : List String → Prop} {path source target p q : List String}
  {n : Node}

/-! ## What stands under a path -/

/-- A path leads on to the directory of the program, or to what stands deeper down. -/
theorem leadsOn_iff :
    d.leadsOn path = true ↔ path <+: d.base ∨ ∃ e ∈ d.nodes, path <+: e.1 ∧ path ≠ e.1 := by
  simp [leadsOn]

/-- What leads on is a directory. -/
theorem node?_of_leadsOn (h : d.leadsOn path = true) : d.node? path = some .directory := if_pos h

/-- Whatever stands somewhere, the paths above lead on to it. -/
theorem leadsOn_of_node? (h : d.node? p = some n) (hq : q <+: p) (hne : q ≠ p) :
    d.leadsOn q = true := by
  rw [leadsOn_iff]
  rw [node?] at h
  split at h
  · next hp =>
    rcases leadsOn_iff.1 hp with hbase | ⟨e, he, hpe, hpne⟩
    · exact Or.inl (hq.trans hbase)
    · refine Or.inr ⟨e, he, hq.trans hpe, ?_⟩
      rintro rfl
      exact hpne (hpe.eq_of_length_le hq.length_le)
  · exact Or.inr ⟨(p, n), mem_of_lookup h, hq, hne⟩

/-- Whatever is above a directory is a directory. -/
theorem directory_of_directory (h : d.node? p = some .directory) (hq : q <+: p) :
    d.node? q = some .directory := by
  by_cases hne : q = p
  · rwa [hne]
  · exact node?_of_leadsOn (leadsOn_of_node? h hq hne)

theorem node?_congr (hleads : d'.leadsOn q = true ↔ d.leadsOn q = true)
    (hlookup : d'.nodes.lookup q = d.nodes.lookup q) : d'.node? q = d.node? q := by
  rw [node?, node?, hlookup, Bool.eq_iff_iff.2 hleads]

/-! ## What has not changed -/

/-- The paths are closed under going down, and everything on the way to them is a directory. -/
structure Enclosed (R : List String → Prop) (d : Directory) : Prop where
  below : ∀ p q, R p → p <+: q → R q
  above : ∀ p q, R p → q <+: p → ¬R q → d.node? q = some .directory

/-- Nothing has changed but what stands under the paths.  The working directory has moved at most
with them. -/
structure Same (R : List String → Prop) (d d' : Directory) : Prop where
  base : ¬R d.base → d'.base = d.base
  inside : R d.base → R d'.base
  node : ∀ q, ¬R q → d'.node? q = d.node? q
  allows : ∀ q access, ¬R q → d'.allows q access = d.allows q access
  homes : d'.homes = d.homes

theorem ne_of_outside (hp : R p) (hq : ¬R q) : q ≠ p := by
  rintro rfl
  exact hq hp

namespace Same

protected theorem refl (R : List String → Prop) (d : Directory) : Same R d d :=
  ⟨fun _ => rfl, id, fun _ _ => rfl, fun _ _ _ => rfl, rfl⟩

protected theorem trans (h : Same R d d') (h' : Same R d' d'') : Same R d d'' where
  base hb := (h'.base (by rwa [h.base hb])).trans (h.base hb)
  inside hb := h'.inside (h.inside hb)
  node q hq := (h'.node q hq).trans (h.node q hq)
  allows q access hq := (h'.allows q access hq).trans (h.allows q access hq)
  homes := h'.homes.trans h.homes

theorem mono (h : Same R d d') (hsub : ∀ q, R q → R' q) : Same R' d d' where
  base hb := h.base (mt (hsub _) hb)
  inside hb := by
    by_cases hin : R d.base
    · exact hsub _ (h.inside hin)
    · rwa [h.base hin]
  node q hq := h.node q (mt (hsub q) hq)
  allows q access hq := h.allows q access (mt (hsub q) hq)
  homes := h.homes

/-- Streams and the account of the changes do not matter. -/
theorem of_eq (hbase : d'.base = d.base) (hnodes : d'.nodes = d.nodes)
    (hrefused : d'.refused = d.refused) (hhomes : d'.homes = d.homes) : Same R d d' where
  base _ := hbase
  inside hb := by rwa [hbase]
  node q _ := by rw [node?, node?, leadsOn, leadsOn, hbase, hnodes]
  allows q access _ := by rw [Directory.allows, Directory.allows, hrefused]
  homes := hhomes

end Same

theorem Enclosed.same (hR : Enclosed R d) (h : Same R d d') : Enclosed R d' :=
  ⟨hR.below, fun p q hp hqp hq => (h.node q hq).trans (hR.above p q hp hqp hq)⟩

/-! ## Writing -/

theorem lookup_write_of_ne (hq : q ≠ path) (n : Node) :
    (d.write path n).nodes.lookup q = d.nodes.lookup q := by
  rw [write, List.lookup_cons, beq_eq_false_iff_ne.2 hq]
  dsimp only
  rw [lookup_filter_ne _ hq]

/-- Writing under a path makes what is above it lead on. -/
theorem leadsOn_write_iff (n : Node) :
    (d.write path n).leadsOn q = true ↔ (q <+: path ∧ q ≠ path) ∨ d.leadsOn q = true := by
  rw [leadsOn_iff, leadsOn_iff]
  constructor
  · rintro (hbase | ⟨e, he, hqe, hne⟩)
    · exact Or.inr (Or.inl hbase)
    · rcases List.mem_cons.1 he with rfl | he
      · exact Or.inl ⟨hqe, hne⟩
      · exact Or.inr (Or.inr ⟨e, (List.mem_filter.1 he).1, hqe, hne⟩)
  · rintro (⟨hqp, hne⟩ | hbase | ⟨e, he, hqe, hne⟩)
    · exact Or.inr ⟨(path, n), List.mem_cons_self, hqp, hne⟩
    · exact Or.inl hbase
    · by_cases hep : e.1 = path
      · exact Or.inr ⟨(path, n), List.mem_cons_self, hep ▸ hqe, hep ▸ hne⟩
      · refine Or.inr ⟨e, List.mem_cons_of_mem _ (List.mem_filter.2 ⟨he, ?_⟩), hqe, hne⟩
        exact decide_eq_true hep

/-- What is put under a path stands there, unless it leads on. -/
theorem node?_write_self (h : d.leadsOn path = false) (n : Node) :
    (d.write path n).node? path = some n := by
  have hleads : ¬((d.write path n).leadsOn path = true) := by
    rw [leadsOn_write_iff, h]
    simp
  rw [node?, if_neg hleads, write, List.lookup_cons_self]

/-- Other paths than the one that is written to keep what stands there, unless they lead to it. -/
theorem node?_write_of_ne (hq : q ≠ path) (hdir : q <+: path → d.node? q = some .directory)
    (n : Node) : (d.write path n).node? q = d.node? q := by
  by_cases hqp : q <+: path
  · rw [hdir hqp]
    exact node?_of_leadsOn ((leadsOn_write_iff n).2 (Or.inl ⟨hqp, hq⟩))
  · refine node?_congr ?_ (lookup_write_of_ne hq n)
    rw [leadsOn_write_iff]
    exact or_iff_right fun h => hqp h.1

/-- Writing inside a region changes this region only. -/
theorem Same.write (hR : Enclosed R d) (hpath : R path) (n : Node) :
    Same R d (d.write path n) where
  base _ := rfl
  inside := id
  node q hq :=
    node?_write_of_ne (ne_of_outside hpath hq) (fun hqp => hR.above path q hpath hqp hq) n
  allows _ _ _ := rfl
  homes := rfl

/-- A directory that is put down again changes nothing. -/
theorem node?_keep (h : d.node? path = some .directory) (q : List String) :
    (d.keep path).node? q = d.node? q := by
  by_cases hq : q = path
  · subst hq
    cases hleads : d.leadsOn q with
    | true => rw [h, keep, node?_of_leadsOn ((leadsOn_write_iff _).2 (Or.inr hleads))]
    | false => rw [h, keep, node?_write_self hleads]
  · exact node?_write_of_ne hq (fun hqp => node?_of_leadsOn (leadsOn_of_node? h hqp hq)) _

/-! ## What is allowed -/

theorem allows_free_of_ne (hq : q ≠ path) (access : Access) :
    (d.free path).allows q access = d.allows q access := by
  rw [allows, allows, free]
  congr 1
  rw [Bool.eq_iff_iff, List.contains_iff_mem, List.contains_iff_mem, List.mem_filter]
  exact and_iff_left (decide_eq_true hq)

theorem allows_free_self (d : Directory) (path : List String) (access : Access) :
    (d.free path).allows path access = true := by
  have hmem : (path, access) ∉ d.refused.filter fun e => e.1 ≠ path := by
    rw [List.mem_filter]
    rintro ⟨-, hne⟩
    exact of_decide_eq_true hne rfl
  rw [allows, free, Bool.not_eq_true', ← Bool.not_eq_true, List.contains_iff_mem]
  exact hmem

theorem Same.free (hpath : R path) : Same R d (d.free path) where
  base _ := rfl
  inside := id
  node _ _ := rfl
  allows _ access hq := allows_free_of_ne (ne_of_outside hpath hq) access
  homes := rfl

/-- Making a file inside a region changes this region only. -/
theorem Same.make (hR : Enclosed R d) (hpath : R path) : Same R d (d.make path) := by
  rw [Directory.make]
  split
  · have hfree : Same R d (d.free path) := .free hpath
    have hwrite := hfree.trans (.write (hR.same hfree) hpath (.file .empty))
    exact hwrite.trans (.of_eq rfl rfl rfl rfl)
  · exact .refl R d

/-! ## Moving and removing -/

/-- What is below the source goes along to the target. -/
theorem movedPath_of_below (h : source <+: p) :
    movedPath source target p = target ++ p.drop source.length :=
  if_pos (List.isPrefixOf_iff_prefix.2 h)

/-- What is not below the source stays. -/
theorem movedPath_of_not_below (h : ¬source <+: p) : movedPath source target p = p :=
  if_neg (mt List.isPrefixOf_iff_prefix.1 h)

/-- Paths go on belonging to the ones that may change. -/
theorem region_movedPath (hbelow : ∀ p q, R p → p <+: q → R q) (htarget : R target) (hp : R p) :
    R (movedPath source target p) := by
  by_cases h : source <+: p
  · rw [movedPath_of_below h]
    exact hbelow target _ htarget (List.prefix_append _ _)
  · rwa [movedPath_of_not_below h]

/-- A path above another one is at most the one around it. -/
theorem prefix_dropLast (h : q <+: p) (hne : q ≠ p) : q <+: p.dropLast := by
  have hlt : q.length < p.length :=
    Nat.lt_of_le_of_ne h.length_le fun heq => hne (h.eq_of_length heq)
  refine List.prefix_of_prefix_length_le h (List.dropLast_prefix p) ?_
  rw [List.length_dropLast]
  omega

/-- Whatever is above a path is another path. -/
theorem dropLast_ne (h : p ≠ []) : p.dropLast ≠ p := by
  intro heq
  have hlength := congrArg List.length heq
  rw [List.length_dropLast] at hlength
  have := List.length_pos_iff.2 h
  omega

/-- What is outside, and not above, leads to nothing inside. -/
theorem not_prefix_of_outside (hbelow : ∀ p q, R p → p <+: q → R q) (hsource : R source)
    (hq : ¬R q) (habove : ¬q <+: source.dropLast) (hp : source <+: p) : ¬q <+: p := by
  intro hqp
  rcases List.prefix_or_prefix_of_prefix hqp hp with h | h
  · refine habove (prefix_dropLast h ?_)
    rintro rfl
    exact hq hsource
  · exact hq (hbelow source q hsource h)

/-- Where a directory is put down first, everything up to it is a directory. -/
theorem node?_of_nodes {es : List (List String × Node)} (h : d.nodes = (p, .directory) :: es)
    (hq : q <+: p) : d.node? q = some .directory := by
  by_cases hne : q = p
  · subst hne
    rw [node?, h, List.lookup_cons_self, ite_self]
  · exact node?_of_leadsOn (leadsOn_iff.2 (Or.inr ⟨_, h ▸ List.mem_cons_self, hq, hne⟩))

/-- The directory around what stands somewhere. -/
theorem node?_dropLast (hne : path ≠ []) (h : d.node? path = some n) :
    d.node? path.dropLast = some .directory :=
  node?_of_leadsOn (leadsOn_of_node? h (List.dropLast_prefix path) (dropLast_ne hne))

section

variable (hbelow : ∀ p q, R p → p <+: q → R q) (hsource : R source) (htarget : R target)
  (hq : ¬R q)
include hbelow hsource htarget hq

/-- Nothing comes to stand under a path outside, and nothing leaves it. -/
theorem movedPath_eq_iff (p : List String) : movedPath source target p = q ↔ p = q := by
  by_cases hp : source <+: p
  · -- neither the old path nor the new one is outside
    have hin := hbelow source p hsource hp
    have hin' : R (movedPath source target p) := region_movedPath hbelow htarget hin
    exact iff_of_false (ne_of_outside hin' hq).symm (ne_of_outside hin hq).symm
  · rw [movedPath_of_not_below hp]

/-- What is noted for a path that neither end of the move touches stays. -/
theorem lookup_map_movedPath (es : List (List String × Node)) :
    (es.map fun e => (movedPath source target e.1, e.2)).lookup q = es.lookup q := by
  induction es with
  | nil => rfl
  | cons e es ih =>
    have hkey : (q == movedPath source target e.1) = (q == e.1) := by
      rw [Bool.eq_iff_iff, beq_iff_eq, beq_iff_eq, eq_comm,
        movedPath_eq_iff hbelow hsource htarget hq, eq_comm]
    rw [List.map_cons, List.lookup_cons, List.lookup_cons, hkey, ih]

/-- What leads to a path from outside leads to it wherever it is moved. -/
theorem prefix_movedPath_iff (hsiblings : source.dropLast = target.dropLast)
    (habove : ¬q <+: source.dropLast) (p : List String) :
    q <+: movedPath source target p ↔ q <+: p := by
  by_cases hp : source <+: p
  · have hfront : target <+: movedPath source target p := by
      rw [movedPath_of_below hp]
      exact List.prefix_append _ _
    exact iff_of_false
      (not_prefix_of_outside hbelow htarget hq (by rwa [← hsiblings]) hfront)
      (not_prefix_of_outside hbelow hsource hq habove hp)
  · rw [movedPath_of_not_below hp]

/-- Moving something makes no other path lead on, and none lead nowhere. -/
theorem leadsOn_rename_iff (hsiblings : source.dropLast = target.dropLast)
    (habove : ¬q <+: source.dropLast) :
    (d.rename source target).leadsOn q = true ↔ (d.keep source.dropLast).leadsOn q = true := by
  have hfront := prefix_movedPath_iff hbelow hsource htarget hq hsiblings habove
  have hpath := movedPath_eq_iff hbelow hsource htarget hq
  have hnodes : (d.rename source target).nodes
      = (d.keep source.dropLast).nodes.map fun e => (movedPath source target e.1, e.2) := rfl
  rw [leadsOn_iff, leadsOn_iff, hnodes]
  refine or_congr (hfront d.base) ?_
  constructor
  · rintro ⟨_, hmem, hqe, hqne⟩
    obtain ⟨e, he, rfl⟩ := List.mem_map.1 hmem
    exact ⟨e, he, (hfront e.1).1 hqe, fun heq => hqne ((hpath e.1).2 heq.symm).symm⟩
  · rintro ⟨e, he, hqe, hqne⟩
    refine ⟨_, List.mem_map_of_mem he, (hfront e.1).2 hqe, ?_⟩
    exact fun heq => hqne ((hpath e.1).1 heq.symm).symm

/-- What is allowed elsewhere stays as it was when something is moved. -/
theorem allows_rename (access : Access) :
    (d.rename source target).allows q access = d.allows q access := by
  have hpath := movedPath_eq_iff hbelow hsource htarget hq
  rw [Directory.allows, Directory.allows, Directory.rename]
  congr 1
  rw [Bool.eq_iff_iff, List.contains_iff_mem, List.contains_iff_mem]
  constructor
  · intro hmem
    obtain ⟨⟨p, a⟩, he, heq⟩ := List.mem_map.1 hmem
    obtain ⟨hmoved, rfl⟩ := Prod.mk.inj heq
    rwa [← (hpath p).1 hmoved]
  · exact fun hmem => List.mem_map.2 ⟨_, hmem, Prod.ext ((hpath q).2 rfl) rfl⟩

end

/-- **What is moved beside itself** leaves everything else alone. -/
theorem Same.rename (hR : Enclosed R d) (hsource : R source) (htarget : R target)
    (hne : source ≠ []) (hsiblings : source.dropLast = target.dropLast)
    (hnode : d.node? source = some n) : Same R d (d.rename source target) where
  base hb := movedPath_of_not_below fun h => hb (hR.below source _ hsource h)
  inside hb := region_movedPath hR.below htarget hb
  node q hq := by
    rw [← node?_keep (node?_dropLast hne hnode) q]
    by_cases habove : q <+: source.dropLast
    · -- the directory around was put down, and stays
      have hstays : movedPath source target source.dropLast = source.dropLast := by
        refine movedPath_of_not_below fun h => dropLast_ne hne ?_
        exact (List.dropLast_prefix source).eq_of_length_le h.length_le
      rw [node?_of_nodes (d := d.rename source target) (congrArg (fun p => (p, _) :: _) hstays)
        habove]
      exact (node?_of_nodes rfl habove).symm
    · exact node?_congr (leadsOn_rename_iff hR.below hsource htarget hq hsiblings habove)
        (lookup_map_movedPath hR.below hsource htarget hq _)
  allows q access hq := allows_rename hR.below hsource htarget hq access
  homes := rfl

/-- **What is removed** leaves everything else alone. -/
theorem Same.remove (hpath : R path) (hne : path ≠ [])
    (hnode : d.node? path = some n) (content : ByteArray) :
    Same R d (d.remove path content) where
  base _ := rfl
  inside := id
  node q hq := by
    rw [← node?_keep (node?_dropLast hne hnode) q]
    have hnodes : (d.remove path content).nodes
        = (d.keep path.dropLast).nodes.filter fun e => e.1 ≠ path := rfl
    by_cases habove : q <+: path.dropLast
    · -- the directory around was put down, and stays
      rw [node?_of_nodes (hnodes.trans (List.filter_cons_of_pos (decide_eq_true (dropLast_ne hne))))
        habove]
      exact (node?_of_nodes rfl habove).symm
    · refine node?_congr ?_ ?_
      · rw [leadsOn_iff, leadsOn_iff, hnodes]
        refine or_congr Iff.rfl (exists_congr fun e => ?_)
        rw [List.mem_filter, and_assoc]
        refine and_congr_right fun _ => ?_
        rw [decide_eq_true_eq]
        refine and_iff_right_of_imp ?_
        rintro ⟨hqe, hqne⟩ rfl
        exact habove (prefix_dropLast hqe hqne)
      · rw [hnodes, lookup_filter_ne _ (ne_of_outside hpath hq)]
  allows q access hq := allows_free_of_ne (ne_of_outside hpath hq) access
  homes := rfl

end Directory

end IgnoreRules
