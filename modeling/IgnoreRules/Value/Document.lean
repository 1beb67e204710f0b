/-
# Documents

A document is what a file with settings holds.  A reader makes a value of its bytes, or says why
it cannot.  Which notation a document is in is the affair of the reader; all that is asked of it is
that no mapping it reads holds a key twice.

* `Document.Reader` : what can read documents;
* `Document.plain` : the reader of plain documents.

A plain document is the text of one value: `null`, `true`, `false`, a number, a text in double
quotes, a list in brackets or a mapping in braces.  Between these stand blanks, line breaks and
comments; a document of nothing else holds the null value.  Reading takes the text apart from left
to right; each reader hands on what it did not read.  The number that bounds the readers of lists
and mappings is computed from the length of the text.
-/
import IgnoreRules.Value.WellFormed
import IgnoreRules.Number.Read
import IgnoreRules.Number.Shortest
import IgnoreRules.Text.Lines

namespace IgnoreRules.Document

/-! ## Readers -/

/-- Why a document cannot be read. -/
inductive Fault where
  /-- It breaks the rules of its notation. -/
  | malformed (detail : String)
  /-- The system failed while the bytes were read. -/
  | interrupted (text : String)
  /-- A problem of another kind came up. -/
  | other (name text : String)
deriving DecidableEq, Repr

/-- What makes values of documents. -/
structure Reader where
  /-- Reads the bytes of a file. -/
  read : ByteArray → Except Fault Value
  /-- A key that comes again in a mapping is written over. -/
  wellFormed : ∀ {content : ByteArray} {v : Value}, read content = .ok v → v.WellFormed

/-! ## Characters -/

/-- The character may stand in a document: it is no control character other than a tabulator or a
line break. -/
def isAllowed (c : Char) : Bool :=
  c = '\t' || Text.isBreak c || 0x20 ≤ c.toNat && c.toNat ≤ 0x7E ||
    0xA0 ≤ c.toNat && c.toNat ≤ 0xFFFD || 0x10000 ≤ c.toNat

/-- The text without the blanks, line breaks and comments at its start. -/
def skipGap (s : List Char) : List Char := go false s
where
  /-- The same where a comment may have begun; it ends with its line. -/
  go (comment : Bool) : List Char → List Char
    | [] => []
    | c :: cs =>
        if Text.isBreak c then go false cs
        else if comment || c = ' ' then go comment cs
        else if c = '#' then go true cs
        else c :: cs

/-! ## Scalars -/

/-- The text up to the closing quote as it is written, and the text behind that quote.  A quote
inside the text stands behind a backslash. -/
def readQuoted : List Char → Option (List Char × List Char)
  | [] => none
  | '"' :: r => some ([], r)
  | '\\' :: '"' :: r => (readQuoted r).map fun (t, rest) => ('\\' :: '"' :: t, rest)
  | c :: r => if c = '\\' then none else (readQuoted r).map fun (t, rest) => (c :: t, rest)

/-- The text without the backslashes that protect other characters. -/
def unprotect : List Char → List Char
  | '\\' :: c :: r => c :: unprotect r
  | c :: r => c :: unprotect r
  | [] => []

/-- The text that is meant by what is written between quotes. -/
def meaning (written : List Char) : String :=
  String.ofList (Text.joinLines (unprotect written))

/-- The digits of a whole number have no zero in front. -/
def wholeDigits (ds : List Char) : Bool := ds = ['0'] || (!ds.isEmpty && ds.head? ≠ some '0')

/-- Reads a number.  One with a point is a floating-point number. -/
def readNumber (s : List Char) : Option (Scalar × List Char) :=
  let negative := s.head? = some '-'
  let s := if negative then s.drop 1 else s
  let whole := s.takeWhile Char.isDigit
  if !wholeDigits whole then none
  else
    match s.dropWhile Char.isDigit with
    | '.' :: r =>
        let part := r.takeWhile Char.isDigit
        if part.isEmpty then none
        else
          let x := Binary64.ofDecimal negative (Number.digitsValue (whole ++ part)) (-part.length)
          some (.float x, r.dropWhile Char.isDigit)
    | r =>
        let n : Int := Number.digitsValue whole
        some (.int (if negative then -n else n), r)

/-- The values that are written as words. -/
def words : List (List Char × Scalar) :=
  [("null".toList, .null), ("true".toList, .bool true), ("false".toList, .bool false)]

/-- Reads a scalar. -/
def readScalar (s : List Char) : Option (Scalar × List Char) :=
  match words.find? fun w => w.1.isPrefixOf s with
  | some (w, v) => some (v, s.drop w.length)
  | none =>
      match s with
      | '"' :: r => (readQuoted r).map fun (t, rest) => (.text (meaning t), rest)
      | _ => readNumber s

/-! ## Values -/

/-- The most characters from the opening quote of a key to the colon behind it. -/
def maxKeyLength : Nat := 1024

/-- Reads the rest of a quoted key and the colon behind it, which stands on the same line. -/
def readKey (s : List Char) : Option (Scalar × List Char) :=
  match readQuoted s with
  | none => none
  | some (written, r) =>
      match r.dropWhile (· = ' ') with
      | ':' :: behind =>
          let blanks := (r.takeWhile (· = ' ')).length
          if written.any Text.isBreak || written.length + 2 + blanks > maxKeyLength then none
          else some (.text (meaning written), behind)
      | _ => none

mutual

/-- Reads a value. -/
def readValue : Nat → List Char → Option (Value × List Char)
  | 0, _ => none
  | fuel + 1, s =>
      match skipGap s with
      | '[' :: r =>
          match skipGap r with
          | ']' :: r => some (.list [], r)
          | r => (readItems fuel r).map fun (vs, rest) => (.list vs, rest)
      | '\x7b' :: r =>
          match skipGap r with
          | '\x7d' :: r => some (.mapping [], r)
          | r => (readEntries fuel r).map fun (es, rest) => (.mapping (Entries.ofList es), rest)
      | r => (readScalar r).map fun (v, rest) => (.scalar v, rest)

/-- Reads the items of a list and the bracket behind them. -/
def readItems : Nat → List Char → Option (List Value × List Char)
  | 0, _ => none
  | fuel + 1, s =>
      match readValue fuel s with
      | none => none
      | some (v, r) =>
          match skipGap r with
          | ',' :: r => (readItems fuel r).map fun (vs, rest) => (v :: vs, rest)
          | ']' :: r => some ([v], r)
          | _ => none

/-- Reads the entries of a mapping and the brace behind them. -/
def readEntries : Nat → List Char → Option (List (Scalar × Value) × List Char)
  | 0, _ => none
  | fuel + 1, s =>
      match skipGap s with
      | '"' :: r =>
          match readKey r with
          | none => none
          | some (k, r) =>
              match readValue fuel r with
              | none => none
              | some (v, r) =>
                  match skipGap r with
                  | ',' :: r => (readEntries fuel r).map fun (es, rest) => ((k, v) :: es, rest)
                  | '\x7d' :: r => some ([(k, v)], r)
                  | _ => none
      | _ => none

end

/-! ## Integers with too many digits -/

/-- Two lists of levels as one, level by level. -/
def mergeLevels {α : Type} : List (List α) → List (List α) → List (List α)
  | [], ys => ys
  | xs, [] => xs
  | x :: xs, y :: ys => (x ++ y) :: mergeLevels xs ys

mutual

/-- The integers in a value by the number of lists and mappings around them. -/
def integers : Value → List (List Int)
  | .scalar (.int n) => [[n]]
  | .scalar _ => []
  | .list items => [] :: itemIntegers items
  | .mapping entries => [] :: entryIntegers entries

/-- The same among the items of a list. -/
def itemIntegers : List Value → List (List Int)
  | [] => []
  | v :: vs => mergeLevels (integers v) (itemIntegers vs)

/-- The same among the entries of a mapping. -/
def entryIntegers : List (Scalar × Value) → List (List Int)
  | [] => []
  | (_, v) :: es => mergeLevels (integers v) (entryIntegers es)

end

/-- The number of digits of the first integer that has too many.  Those with fewer lists and
mappings around them come first. -/
def longInteger? (v : Value) : Option Nat :=
  ((integers v).flatten.map fun n => (Number.digits n.natAbs).length).find? (· > Number.maxDigits)

/-! ## Plain documents -/

/-- The text without the mark that files may begin with. -/
def withoutMark : List Char → List Char
  | '\ufeff' :: s => s
  | s => s

/-- Reads the text of one value and nothing else. -/
def readWhole (s : List Char) : Option Value :=
  if !s.all isAllowed then none
  else if (skipGap s).isEmpty then some .null
  else
    match readValue (2 * s.length + 2) s with
    | some (v, rest) => if (skipGap rest).isEmpty then some v else none
    | none => none

/-- What is said of a text that is no plain document. -/
def notPlain : String := "this is no plain document"

/-- What is said of bytes that are no text. -/
def notText : Fault := .other "UnicodeDecodeError" "'utf-8' codec can't decode the bytes of the file"

/-- What is said of an integer with too many digits. -/
def longInteger (digits : Nat) : Fault :=
  .other "ValueError" ("Exceeds the limit (" ++ toString Number.maxDigits ++
    " digits) for integer string conversion: value has " ++ toString digits ++
    " digits; use sys.set_int_max_str_digits() to increase the limit")

/-- Reads a plain document. -/
def readPlain (content : ByteArray) : Except Fault Value :=
  match String.fromUTF8? content with
  | none => .error notText
  | some text =>
      match readWhole (withoutMark text.toList) with
      | none => .error (.malformed notPlain)
      | some v =>
          match longInteger? v with
          | some digits => .error (longInteger digits)
          | none => .ok v

/-! ## What is read -/

/-- The readers of values, items and entries give well-formed values, as long as they are bounded by
this number. -/
structure ReadsWell (fuel : Nat) : Prop where
  value : ∀ {s v rest}, readValue fuel s = some (v, rest) → v.WellFormed
  items : ∀ {s vs rest}, readItems fuel s = some (vs, rest) → Value.AllWellFormed vs
  entries : ∀ {s es rest}, readEntries fuel s = some (es, rest) → ∀ e ∈ es, e.2.WellFormed

section

variable {fuel : Nat} {s rest : List Char} (h : ReadsWell fuel)
include h

theorem ReadsWell.readValue {v : Value} (hv : readValue (fuel + 1) s = some (v, rest)) :
    v.WellFormed := by
  rw [Document.readValue] at hv
  split at hv
  · -- a list, which may be empty
    split at hv
    · cases hv
      exact trivial
    · obtain ⟨⟨vs, r⟩, hvs, heq⟩ := Option.map_eq_some_iff.1 hv
      cases heq
      exact h.items hvs
  · -- a mapping, where a key that comes again is written over
    split at hv
    · cases hv
      exact trivial
    · obtain ⟨⟨es, r⟩, hes, heq⟩ := Option.map_eq_some_iff.1 hv
      cases heq
      exact Entries.wellFormed_ofList (h.entries hes)
  · -- a scalar
    obtain ⟨⟨k, r⟩, -, heq⟩ := Option.map_eq_some_iff.1 hv
    cases heq
    exact trivial

theorem ReadsWell.readItems {vs : List Value} (hvs : readItems (fuel + 1) s = some (vs, rest)) :
    Value.AllWellFormed vs := by
  rw [Document.readItems] at hvs
  split at hvs
  · cases hvs
  · next v r hv =>
    -- after an item come a comma and more items, or the end
    split at hvs
    · obtain ⟨⟨ws, r'⟩, hws, heq⟩ := Option.map_eq_some_iff.1 hvs
      cases heq
      exact ⟨h.value hv, h.items hws⟩
    · cases hvs
      exact ⟨h.value hv, trivial⟩
    · cases hvs

theorem ReadsWell.readEntries {es : List (Scalar × Value)}
    (hes : readEntries (fuel + 1) s = some (es, rest)) : ∀ e ∈ es, e.2.WellFormed := by
  rw [Document.readEntries] at hes
  split at hes
  · split at hes
    · cases hes
    · split at hes
      · cases hes
      · next v r hv =>
        -- after an entry come a comma and more entries, or the end
        split at hes
        · obtain ⟨⟨ds, r'⟩, hds, heq⟩ := Option.map_eq_some_iff.1 hes
          cases heq
          exact List.forall_mem_cons.2 ⟨h.value hv, h.entries hds⟩
        · cases hes
          exact List.forall_mem_singleton.2 (h.value hv)
        · cases hes
  · cases hes

end

/-- The readers give well-formed values, however they are bounded. -/
theorem readsWell (fuel : Nat) : ReadsWell fuel := by
  induction fuel with
  | zero => exact ⟨nofun, nofun, nofun⟩
  | succ fuel ih => exact ⟨ih.readValue, ih.readItems, ih.readEntries⟩

/-- **A plain document that is read is well-formed.** -/
theorem wellFormed_of_readPlain {content : ByteArray} {v : Value}
    (h : readPlain content = .ok v) : v.WellFormed := by
  rw [readPlain] at h
  split at h
  · cases h
  · split at h
    · cases h
    · next w hw =>
      split at h
      · cases h
      · cases h
        rw [readWhole] at hw
        split at hw
        · cases hw
        · split at hw
          · cases hw
            exact trivial
          · split at hw
            · next hread =>
              split at hw
              · cases hw
                exact (readsWell _).value hread
              · cases hw
            · cases hw

/-- The reader of plain documents. -/
def plain : Reader where
  read := readPlain
  wellFormed := wellFormed_of_readPlain

end IgnoreRules.Document
