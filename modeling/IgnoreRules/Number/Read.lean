/-
# Reading numbers

Numbers are read with the digits of any script, blanks around them, and single underscores between
digits.

* `Number.int?` reads an integer of at most 4300 digits;
* `Number.float?` reads a decimal number with an optional point and exponent, an infinity, or the
  name of what is no number.
-/
import IgnoreRules.Number.Binary64
import IgnoreRules.Text.CharacterClass

namespace IgnoreRules.Number

/-! ## Preparing a text -/

/-- A digit of any script as a digit of the Latin one. -/
def plainDigit (c : Char) : Char :=
  if c.toNat < 0x80 then c
  else ((Text.digitValue? c).map fun d => Char.ofNat ('0'.toNat + d)).getD c

/-- The text without blanks at its ends, and with plain digits. -/
def prepare (s : List Char) : List Char := (Text.trim s).map plainDigit

/-- Removes a sign, and says whether it is a minus. -/
def splitSign : List Char → Bool × List Char
  | '-' :: r => (true, r)
  | '+' :: r => (false, r)
  | r => (false, r)

/-- Removes the underscores, if each stands between two digits.  The character before the text is
given. -/
def dropUnderscores (before : Char) : List Char → Option (List Char)
  | [] => if before = '_' then none else some []
  | '_' :: r => if before.isDigit then dropUnderscores '_' r else none
  | c :: r =>
      if before = '_' && !c.isDigit then none else (dropUnderscores c r).map (c :: ·)

/-- The value of a text of digits. -/
def digitsValue (ds : List Char) : Nat := ds.foldl (fun n d => 10 * n + (d.toNat - '0'.toNat)) 0

/-! ## Integers -/

/-- The most digits an integer is read with. -/
def maxDigits : Nat := 4300

/-- Reads an integer. -/
def int? (s : List Char) : Option Int :=
  let (negative, r) := splitSign (prepare s)
  match dropUnderscores ' ' r with
  | none => none
  | some ds =>
      if ds.isEmpty || !ds.all Char.isDigit || ds.length > maxDigits then none
      else
        let n : Int := digitsValue ds
        some (if negative then -n else n)

/-! ## Decimal numbers -/

/-- Reads the exponent of a decimal number, which may be missing. -/
def exponent? : List Char → Option Int
  | [] => some 0
  | c :: r =>
      if c = 'e' || c = 'E' then
        let (negative, ds) := splitSign r
        if ds.isEmpty || !ds.all Char.isDigit then none
        else
          let n : Int := digitsValue ds
          some (if negative then -n else n)
      else none

/-- Reads a decimal number without a sign, as a whole number and a power of ten. -/
def decimal? (s : List Char) : Option (Nat × Int) :=
  let whole := s.takeWhile Char.isDigit
  let r := s.dropWhile Char.isDigit
  let (part, r) :=
    match r with
    | '.' :: r => (r.takeWhile Char.isDigit, r.dropWhile Char.isDigit)
    | r => ([], r)
  if whole.isEmpty && part.isEmpty then none
  else (exponent? r).map fun e => (digitsValue (whole ++ part), e - part.length)

/-- Reads the name of a number that has no digits. -/
def named? (negative : Bool) (s : List Char) : Option Binary64 :=
  match String.ofList (s.map Char.toLower) with
  | "inf" => some (.infinite negative)
  | "infinity" => some (.infinite negative)
  | "nan" => some .nan
  | _ => none

/-- Reads a floating-point number. -/
def float? (s : List Char) : Option Binary64 :=
  match dropUnderscores ' ' (prepare s) with
  | none => none
  | some r =>
      let (negative, r) := splitSign r
      match named? negative r with
      | some x => some x
      | none => (decimal? r).map fun (m, e) => Binary64.ofDecimal negative m e

end IgnoreRules.Number
