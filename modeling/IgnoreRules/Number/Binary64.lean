/-
# Floating-point numbers

A floating-point number is a value `± m * 2 ^ q` with at most 53 binary digits, an infinity, or no
number at all.  Numbers are made by rounding a quotient to the nearest such value: of two equally
near ones the even one is taken, and what is too large becomes an infinity.

Every finite number is kept in one form only: `m` has 53 digits, or `q` is the least exponent.
-/
namespace IgnoreRules

/-- A floating-point number with 53 binary digits. -/
inductive Binary64 where
  /-- Not a number. -/
  | nan
  | infinite (negative : Bool)
  /-- The number `m * 2 ^ q` with a sign. -/
  | finite (negative : Bool) (m : Nat) (q : Int)
deriving DecidableEq, Repr

namespace Binary64

/-! ## Making numbers -/

/-- The exponent of the smallest positive number. -/
def leastExponent : Int := -1074

/-- The exponent of the largest numbers. -/
def greatestExponent : Int := 971

/-- A power of two. -/
def twoTo (n : Nat) : Nat := Nat.pow 2 n

/-- A power of ten. -/
def tenTo (n : Nat) : Nat := Nat.pow 10 n

/-- The quotient rounded to the nearest natural number, ties to the even one. -/
def roundDiv (num den : Nat) : Nat :=
  let m := num / den
  let r := num % den
  if 2 * r > den || (2 * r == den && m % 2 == 1) then m + 1 else m

/-- The quotient `num / den * 2 ^ (-q)`, as a numerator and a denominator. -/
def scaled (num den : Nat) (q : Int) : Nat × Nat :=
  (num * twoTo (-q).toNat, den * twoTo q.toNat)

/-- The exponent at which a positive quotient has 53 digits before the point, or the least
exponent. -/
def exponentFor (num den : Nat) : Int :=
  let q : Int := (num.log2 : Int) - den.log2 - 53
  let (n, d) := scaled num den q
  max leastExponent (if n / d < twoTo 53 then q else q + 1)

/-- The number nearest to `num / den`, with a sign. -/
def ofRatio (negative : Bool) (num den : Nat) : Binary64 :=
  if num = 0 then .finite negative 0 leastExponent
  else
    let q := exponentFor num den
    let (n, d) := scaled num den q
    let m := roundDiv n d
    let (m, q) := if m = twoTo 53 then (twoTo 52, q + 1) else (m, q)
    if q > greatestExponent then .infinite negative else .finite negative m q

/-- The number nearest to `m * 10 ^ e`, with a sign.  A power of ten that leads out of the range,
whatever stands before it, is not computed. -/
def ofDecimal (negative : Bool) (m : Nat) (e : Int) : Binary64 :=
  if m = 0 || (m.log2 : Int) + 1 + 3 * e < -1100 then .finite negative 0 leastExponent
  else if e > 400 then .infinite negative
  else ofRatio negative (m * tenTo e.toNat) (tenTo (-e).toNat)

/-! ## Comparing numbers exactly -/

/-- The numerator of a finite number over the denominator `2 ^ 1074`. -/
def numerator (negative : Bool) (m : Nat) (q : Int) : Int :=
  let n : Nat := m * twoTo (q - leastExponent).toNat
  if negative then -n else n

/-- The denominator of `numerator`. -/
def denominator : Int := twoTo 1074

/-- The number equals the integer. -/
def eqInt (x : Binary64) (n : Int) : Bool :=
  match x with
  | .finite s m q => numerator s m q = n * denominator
  | _ => false

/-- The number is less than the integer. -/
def ltInt (x : Binary64) (n : Int) : Bool :=
  match x with
  | .finite s m q => numerator s m q < n * denominator
  | .infinite s => s
  | .nan => false

/-- The integer is less than the number. -/
def intLt (n : Int) (x : Binary64) : Bool :=
  match x with
  | .finite s m q => n * denominator < numerator s m q
  | .infinite s => !s
  | .nan => false

/-- The two numbers are equal: zeros of both signs are, and what is no number equals nothing. -/
def same : Binary64 → Binary64 → Bool
  | .finite s m q, .finite s' m' q' => numerator s m q = numerator s' m' q'
  | .infinite s, .infinite s' => s = s'
  | _, _ => false

/-- The first number is less than the second. -/
def lt : Binary64 → Binary64 → Bool
  | .nan, _ => false
  | _, .nan => false
  | .finite s m q, .finite s' m' q' => numerator s m q < numerator s' m' q'
  | .infinite s, .infinite s' => s && !s'
  | .infinite s, .finite .. => s
  | .finite .., .infinite s' => !s'

/-- The least natural number that is no smaller, for a number that is positive; `none` when there
is none. -/
def ceil? : Binary64 → Option Nat
  | .finite false m q => some ((m * twoTo q.toNat + twoTo (-q).toNat - 1) / twoTo (-q).toNat)
  | .finite true _ _ => some 0
  | .infinite true => some 0
  | .infinite false => none
  | .nan => none

/-- The number is zero. -/
def isZero : Binary64 → Bool
  | .finite _ m _ => m = 0
  | _ => false

end Binary64

end IgnoreRules
