/-
# Values as keys of a cache

The keys of a cache may be values of a configuration.  Two of them are the same key if they are the
same key of a mapping: numbers are compared as numbers.  Lists and mappings cannot be keys; a step
that would look one up fails, and leaves the cache as it was.

A cache that is switched off looks nothing up when it is asked or written to, and so these steps
take any value.
-/
import IgnoreRules.Cache
import IgnoreRules.Value

namespace IgnoreRules.Cache

/-! ## Keys -/

/-- A scalar as the key of a cache. -/
structure ValueKey where
  scalar : Scalar

/-- Keys are compared like those of mappings. -/
instance : BEq ValueKey := ⟨fun a b => a.scalar.same b.scalar⟩

/-- A value of this kind is no key. -/
structure KeyFault where
  kind : Kind

/-- The wording of a fault. -/
def KeyFault.message (f : KeyFault) : String := "unhashable type: '" ++ f.kind.name ++ "'"

/-- The name of the kind of a fault. -/
def KeyFault.name : String := "TypeError"

/-- The key that a value is. -/
def ValueKey.ofValue : Value → Except KeyFault ValueKey
  | .scalar s => .ok ⟨s⟩
  | v => .error ⟨v.kind⟩

@[simp] theorem ValueKey.ofValue_scalar (s : Scalar) : ofValue (.scalar s) = .ok ⟨s⟩ := rfl

/-! ## Steps with a value as the key -/

variable {ν : Type}

/-- Asks for what is kept under a value. -/
def getAt (c : Cache ValueKey ν) (v : Value) : Except KeyFault (Option ν × Cache ValueKey ν) :=
  if c.enabled then (ValueKey.ofValue v).map c.get else .ok (none, c.miss)

/-- Keeps something under a value. -/
def putAt (c : Cache ValueKey ν) (v : Value) (kept : ν) : Except KeyFault (Cache ValueKey ν) :=
  if c.enabled then (ValueKey.ofValue v).map fun key => c.put key kept else .ok c

/-- Something is kept under a value. -/
def containsAt (c : Cache ValueKey ν) (v : Value) : Except KeyFault Bool :=
  (ValueKey.ofValue v).map c.contains

/-- Drops what is kept under a value. -/
def invalidateAt (c : Cache ValueKey ν) (v : Value) : Except KeyFault (Bool × Cache ValueKey ν) :=
  (ValueKey.ofValue v).map c.invalidate

end IgnoreRules.Cache
