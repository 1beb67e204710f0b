/-
# Numbers as text

A natural number is written with its decimal digits, the first of which is no zero unless it is
the only one; an integer is written with a sign when it is negative.

A floating-point number is written with as few digits as lead back to it, and of the texts with
that many digits by the one nearest to it.  The point is shown for numbers from `10 ^ -4` up to
below `10 ^ 16`, and others are written with an exponent of at least two digits.

All tests are made on natural numbers.  The numbers that round to `m * 2 ^ q` lie within half a
step of it, or within a quarter below a power of two; the ends belong to them when `m` is even.
-/
import IgnoreRules.Number.Binary64

namespace IgnoreRules.Number

/-! ## Whole numbers -/

/-- The character of a digit. -/
def digit (n : Nat) : Char := Char.ofNat ('0'.toNat + n)

/-- The digits of a number, in front of the given ones. -/
def digitsOnto (n : Nat) (tail : List Char) : List Char :=
  if n < 10 then digit n :: tail else digitsOnto (n / 10) (digit (n % 10) :: tail)

/-- The decimal digits of a number. -/
def digits (n : Nat) : List Char := digitsOnto n []

/-- An integer as text. -/
def intText (n : Int) : List Char :=
  if n < 0 then '-' :: digits n.natAbs else digits n.natAbs

/-! ## The shortest digits -/

/-- A positive number in quarters of its last binary digit, with what is needed to compare it with
multiples of a power of ten. -/
structure Span where
  /-- The number, and the ends of the numbers that round to it. -/
  value : Nat
  low : Nat
  high : Nat
  /-- The ends belong to the span. -/
  closed : Bool

/-- The numbers that round to `m * 2 ^ q`, in units of `2 ^ (q - 2)`. -/
def Span.of (m : Nat) (q : Int) : Span where
  value := 4 * m
  low := if m = Binary64.twoTo 52 && q > Binary64.leastExponent then 4 * m - 1 else 4 * m - 2
  high := 4 * m + 2
  closed := m % 2 == 0

/-- The factors that bring multiples of `10 ^ g` and units of `2 ^ u` to a common measure. -/
def factors (g u : Int) : Nat × Nat :=
  (Binary64.tenTo g.toNat * Binary64.twoTo (-u).toNat,
    Binary64.tenTo (-g).toNat * Binary64.twoTo u.toNat)

/-- The multiple of `10 ^ g` to write for a number, if one of its two neighbours among these
multiples rounds to the number.  Of two that do, the nearer one is taken, or the even one. -/
def onGrid? (s : Span) (u g : Int) : Option Nat :=
  let (ten, two) := factors g u
  let within := fun (d : Nat) =>
    if s.closed then s.low * two ≤ d * ten && d * ten ≤ s.high * two
    else s.low * two < d * ten && d * ten < s.high * two
  let d := s.value * two / ten
  let r := s.value * two % ten
  match within d, within (d + 1) with
  | false, false => none
  | true, false => some d
  | false, true => some (d + 1)
  | true, true =>
      if 2 * r < ten || (2 * r == ten && d % 2 == 0) then some d else some (d + 1)

/-- The exponent of the first decimal digit of `m * 2 ^ q`. -/
def leadingExponent (m : Nat) (q : Int) : Int :=
  let reaches := fun (e : Int) => let (ten, two) := factors e q; ten ≤ m * two
  let e := (((m.log2 : Int) + q) * 30103).fdiv 100000
  if reaches (e + 1) then e + 1 else if reaches e then e else e - 1

/-- The shortest decimal `d * 10 ^ g` that leads back to `m * 2 ^ q`.  Seventeen digits always
do. -/
def shortest (m : Nat) (q : Int) : Nat × Int :=
  let top := leadingExponent m q
  ((List.range 17).findSome? fun (n : Nat) =>
      let g := top - n
      (onGrid? (Span.of m q) (q - 2) g).map (·, g)).getD (0, 0)

/-! ## The text -/

/-- The digits of `d` without zeros at the end, and the exponent of the first of them. -/
def significant (d : Nat) (g : Int) : List Char × Int :=
  let ds := digits d
  ((ds.reverse.dropWhile (· = '0')).reverse, g + ds.length - 1)

/-- Digits with a point, or without one where no digit follows it. -/
def withPoint (ds : List Char) : List Char :=
  match ds with
  | [] => []
  | [d] => [d]
  | d :: r => d :: '.' :: r

/-- An exponent with its sign and at least two digits. -/
def exponentText (e : Int) : List Char :=
  let ds := digits e.natAbs
  (if e < 0 then '-' else '+') :: (List.replicate (2 - ds.length) '0' ++ ds)

/-- The text of digits whose first one has the given exponent. -/
def place (ds : List Char) (e : Int) : List Char :=
  if e < -4 || e ≥ 16 then withPoint ds ++ 'e' :: exponentText e
  else if e < 0 then '0' :: '.' :: (List.replicate (-e - 1).toNat '0' ++ ds)
  else
    let n := e.toNat + 1
    let whole := ds.take n ++ List.replicate (n - ds.length) '0'
    let part := ds.drop n
    whole ++ '.' :: (if part.isEmpty then ['0'] else part)

/-- A floating-point number as text. -/
def floatText : Binary64 → List Char
  | .nan => ['n', 'a', 'n']
  | .infinite s => (if s then ['-'] else []) ++ ['i', 'n', 'f']
  | .finite s m q =>
      (if s then ['-'] else []) ++
        if m = 0 then ['0', '.', '0']
        else
          let (d, g) := shortest m q
          let (ds, e) := significant d g
          place ds e

end IgnoreRules.Number
