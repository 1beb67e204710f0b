/-
# Bounded caches

A cache keeps values under keys, and when it is full it drops the entry that was used longest ago.
Writing a key and finding it are uses of the key; asking whether it is there is none.

The entries are listed with the latest used first, so that the entry to drop is the last one.
-/
import IgnoreRules.Number.Binary64

namespace IgnoreRules

/-- How many entries a cache can hold. -/
inductive Capacity where
  | unbounded
  /-- A positive number of entries. -/
  | atMost (n : Nat) (pos : 0 < n)
deriving DecidableEq

namespace Capacity

/-- The entries that stay when one more is to be written. -/
def makeRoom {α : Type} : Capacity → List α → List α
  | .unbounded, es => es
  | .atMost n _, es => es.take (n - 1)

@[simp] theorem makeRoom_unbounded {α : Type} (es : List α) :
    makeRoom .unbounded es = es := rfl

@[simp] theorem makeRoom_atMost {α : Type} (n : Nat) (pos : 0 < n) (es : List α) :
    makeRoom (.atMost n pos) es = es.take (n - 1) := rfl

end Capacity

/-- A cache with its counters. -/
structure Cache (κ ν : Type) where
  capacity : Capacity
  /-- A cache that is switched off keeps nothing. -/
  enabled : Bool
  /-- The entries, the latest used first. -/
  entries : List (κ × ν)
  /-- How often a key that was asked for was found. -/
  hits : Nat
  /-- How often a key that was asked for was not found. -/
  misses : Nat
  /-- How many entries were dropped to make room. -/
  evictions : Nat

namespace Cache

variable {κ ν : Type} [BEq κ]

/-- A cache without entries. -/
def empty (capacity : Capacity) (enabled : Bool) : Cache κ ν :=
  ⟨capacity, enabled, [], 0, 0, 0⟩

/-- The number of entries. -/
def size (c : Cache κ ν) : Nat := c.entries.length

/-- The value of a key, without using it. -/
def find? (c : Cache κ ν) (key : κ) : Option ν := c.entries.lookup key

/-- The key is there. -/
def contains (c : Cache κ ν) (key : κ) : Bool := (c.find? key).isSome

/-- The entries of all other keys. -/
def others (c : Cache κ ν) (key : κ) : List (κ × ν) := c.entries.filter fun e => !(e.1 == key)

/-- Counts a question that was not answered. -/
def miss (c : Cache κ ν) : Cache κ ν := { c with misses := c.misses + 1 }

/-- Asks for the value of a key, and uses the key if it is there. -/
def get (c : Cache κ ν) (key : κ) : Option ν × Cache κ ν :=
  match if c.enabled then c.find? key else none with
  | some v => (some v, { c with entries := (key, v) :: c.others key, hits := c.hits + 1 })
  | none => (none, c.miss)

/-- Writes the value of a key.  If the cache is full, the entries used longest ago make room. -/
def put (c : Cache κ ν) (key : κ) (value : ν) : Cache κ ν :=
  if c.enabled then
    let kept := c.capacity.makeRoom (c.others key)
    { c with
      entries := (key, value) :: kept
      evictions := c.evictions + ((c.others key).length - kept.length) }
  else c

/-- Drops the entry of a key, and says whether there was one. -/
def invalidate (c : Cache κ ν) (key : κ) : Bool × Cache κ ν :=
  (c.contains key, { c with entries := c.others key })

/-- Drops all entries. -/
def clear (c : Cache κ ν) : Cache κ ν := { c with entries := [] }

/-- The share of the questions that were answered; `none` before the first question. -/
def hitRate? (c : Cache κ ν) : Option Binary64 :=
  if c.hits + c.misses = 0 then none
  else some (.ofRatio false c.hits (c.hits + c.misses))

end Cache

end IgnoreRules
