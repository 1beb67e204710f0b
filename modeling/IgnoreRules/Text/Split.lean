/-
# Splitting and joining texts

A text is split at every occurrence of a separator, from left to right and without overlaps; the
parts between two neighbouring occurrences may be empty.
-/
namespace IgnoreRules.Text

/-- Puts a character in front of the first part. -/
def consFirst (c : Char) : List (List Char) → List (List Char)
  | [] => [[c]]
  | p :: ps => (c :: p) :: ps

/-- The parts of a text between separators, after passing over `skip` characters that belong to a
separator already found. -/
def splitFrom (sep : List Char) : Nat → List Char → List (List Char)
  | _, [] => [[]]
  | skip + 1, _ :: r => splitFrom sep skip r
  | 0, c :: r =>
      if sep.isPrefixOf (c :: r) then [] :: splitFrom sep (sep.length - 1) r
      else consFirst c (splitFrom sep 0 r)

/-- The parts of a text between the occurrences of a separator. -/
def split (sep s : String) : List String :=
  (splitFrom sep.toList 0 s.toList).map String.ofList

/-- A text has at least one part. -/
theorem splitFrom_ne_nil (sep cs : List Char) (skip : Nat) : splitFrom sep skip cs ≠ [] := by
  induction cs generalizing skip with
  | nil => cases skip <;> exact List.cons_ne_nil _ _
  | cons c cs ih =>
    cases skip with
    | succ skip => exact ih skip
    | zero =>
      rw [splitFrom]
      split
      · exact List.cons_ne_nil _ _
      · cases splitFrom sep 0 cs <;> exact List.cons_ne_nil _ _

/-- A text has at least one part. -/
theorem split_ne_nil (sep s : String) : split sep s ≠ [] := by
  rw [split]
  exact mt List.map_eq_nil_iff.1 (splitFrom_ne_nil _ _ _)

/-- The texts with a separator between each and the next. -/
def join (sep : String) (parts : List String) : String := sep.intercalate parts

end IgnoreRules.Text
