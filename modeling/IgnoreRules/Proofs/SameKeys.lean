/-
# Scalars that are one and the same key

Keys of mappings and caches are compared by what they stand for: two numbers are the same key if
they are equal as numbers, whatever their kinds, and what is no number is the same as no key, not
even as itself.  So being the same key is symmetric and transitive.

* `Scalar.worth?` : what a scalar stands for as a key;
* `Scalar.same_iff_worth` : two scalars are the same key if they stand for the same.
-/
import IgnoreRules.Cache.Key
import Mathlib.Algebra.GroupWithZero.Basic
import Mathlib.Algebra.Ring.Int.Defs

namespace IgnoreRules

namespace Binary64

theorem twoTo_pos (n : Nat) : 0 < twoTo n := Nat.pow_pos Nat.two_pos

theorem denominator_ne_zero : denominator ≠ 0 := Int.ne_of_gt (Int.natCast_pos.2 (twoTo_pos 1074))

end Binary64

/-- What a key can stand for.  A number is given over the denominator of all finite numbers. -/
inductive Scalar.Worth where
  | null
  | number (numerator : Int)
  | infinite (negative : Bool)
  | text (s : String)

namespace Scalar

/-- What a scalar stands for as a key, if it is the same key as anything. -/
def worth? : Scalar → Option Worth
  | .null => some .null
  | .bool b => some (.number (ofBool b * Binary64.denominator))
  | .int n => some (.number (n * Binary64.denominator))
  | .float (.finite s m q) => some (.number (Binary64.numerator s m q))
  | .float (.infinite s) => some (.infinite s)
  | .float .nan => none
  | .text s => some (.text s)

/-- **Two scalars are the same key exactly if they stand for the same.** -/
theorem same_iff_worth {a b : Scalar} :
    a.same b = true ↔ ∃ w, a.worth? = some w ∧ b.worth? = some w := by
  -- floating-point numbers of each form are compared in a way of their own
  rcases a with _ | p | m | (_ | _ | _) | t <;> rcases b with _ | p' | n | (_ | _ | _) | t' <;>
    simp [same, whole?, worth?, Binary64.same, Binary64.eqInt,
      Binary64.denominator_ne_zero, eq_comm]

end Scalar

namespace Cache

instance : PartialEquivBEq ValueKey where
  symm := by
    intro a b h
    obtain ⟨w, ha, hb⟩ := Scalar.same_iff_worth.1 h
    exact Scalar.same_iff_worth.2 ⟨w, hb, ha⟩
  trans := by
    intro a b c hab hbc
    obtain ⟨w, ha, hb⟩ := Scalar.same_iff_worth.1 hab
    obtain ⟨w', hb', hc⟩ := Scalar.same_iff_worth.1 hbc
    obtain rfl : w = w' := Option.some.inj (hb.symm.trans hb')
    exact Scalar.same_iff_worth.2 ⟨w, ha, hc⟩

end Cache

end IgnoreRules
