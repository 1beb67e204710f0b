/-
# Options of a cache

The capacity of a cache is given as a value.  Any positive number will do: a cache holds fewer
entries than the number while it makes room, so a number between two integers counts as the larger
one, and one that no count reaches sets no bound.
-/
import IgnoreRules.Cache
import IgnoreRules.Settings

namespace IgnoreRules.Cache

/-- Why a value is no capacity. -/
inductive OptionFault where
  /-- It is no positive number. -/
  | notPositive (v : Value)
  /-- It is no number. -/
  | notNumber (kind : Kind)

/-- The wording of a fault. -/
def OptionFault.message : OptionFault → String
  | .notPositive v => "max_entries must be positive: " ++ v.plain
  | .notNumber kind =>
      "'<=' not supported between instances of '" ++ kind.name ++ "' and '" ++ Kind.int.name ++ "'"

/-- The name of the kind of a fault. -/
def OptionFault.name : OptionFault → String
  | .notPositive _ => "ValueError"
  | .notNumber _ => "TypeError"

/-- The capacity of at most `n` entries, or the fault of the value that asks for it. -/
def atMost (n : Nat) (v : Value) : Except OptionFault Capacity :=
  if h : 0 < n then .ok (.atMost n h) else .error (.notPositive v)

/-- The capacity that a value asks for. -/
def capacityOf (v : Value) : Except OptionFault Capacity :=
  match v with
  | .int n => atMost n.toNat v
  | .bool b => atMost (Scalar.ofBool b).toNat v
  | .float x =>
      if x.ltInt 0 || x.eqInt 0 then .error (.notPositive v)
      else
        match x.ceil? with
        | none => .ok .unbounded
        | some n => atMost n v
  | v => .error (.notNumber v.kind)

/-- The cache that two values describe: its capacity, and whether it is switched on. -/
def ofOptions {κ ν : Type} (maxEntries enabled : Value) : Except OptionFault (Cache κ ν) :=
  (capacityOf maxEntries).map fun c => .empty c enabled.isTrue

/-- The cache that the settings describe. -/
def ofSettings {κ ν : Type} (s : Settings) : Except OptionFault (Cache κ ν) :=
  ofOptions (s.get (Key.full Key.cache Key.maxEntries) (.int Settings.defaultMaxEntries))
    (s.get (Key.full Key.cache Key.enabled) (.bool true))

end IgnoreRules.Cache
