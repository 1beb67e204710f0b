/-
# Letter cases

Writes a text in capitals or in small letters.  A letter may change into several characters, and
a capital sigma becomes `ς` at the end of a word and `σ` elsewhere.
-/
import IgnoreRules.Text.LetterCase.Table

namespace IgnoreRules.Text

/-! ## Capitals -/

/-- The form of a letter that the tables give, or the letter itself. -/
def otherForm (rows : List CaseRow) (long : List (Nat × List Nat)) (c : Char) : List Char :=
  match long.lookup c.toNat with
  | some ns => ns.map Char.ofNat
  | none => [((rows.findSome? fun r => r.map? c.toNat).map Char.ofNat).getD c]

/-- The capital form of a character. -/
def capital (c : Char) : List Char :=
  if c.toNat < 0x80 then [c.toUpper] else otherForm capitalRows longCapitals c

/-- The text in capitals. -/
def upper (s : List Char) : List Char := s.flatMap capital

/-! ## Small letters -/

/-- The small form of a character other than the capital sigma. -/
def small (c : Char) : List Char :=
  if c.toNat < 0x80 then [c.toLower] else otherForm smallRows longSmalls c

/-- The first character that counts is a letter of the word. -/
def meetsLetter (s : List Char) : Bool :=
  ((s.dropWhile (inRanges ignorableRanges)).head?).any (inRanges casedRanges)

/-- A sigma ends a word when a letter of the word stands before it and none behind it.  The text
before it is given backwards. -/
def endsWord (before after : List Char) : Bool := meetsLetter before && !meetsLetter after

/-- The rest of a text in small letters, behind the given text, which is read backwards. -/
def lowerAfter (before : List Char) : List Char → List Char
  | [] => []
  | c :: r =>
      (if c = 'Σ' then [if endsWord before r then 'ς' else 'σ'] else small c) ++
        lowerAfter (c :: before) r

/-- The text in small letters. -/
def lower (s : List Char) : List Char := lowerAfter [] s

end IgnoreRules.Text
