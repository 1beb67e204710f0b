/-
# Values as text

A value is shown as `None`, `True` or `False`, a number, a quoted text, a list in brackets, or a
mapping in braces.  In running text a value that is itself a text stands without quotes.

An integer with too many digits cannot be shown, and neither can a value that holds one.
-/
import IgnoreRules.Value
import IgnoreRules.Number.Read
import IgnoreRules.Number.Shortest
import IgnoreRules.Text.Quoted
import IgnoreRules.Text.Split

namespace IgnoreRules

/-- A scalar as it is shown. -/
def Scalar.shown : Scalar → String
  | .null => "None"
  | .bool true => "True"
  | .bool false => "False"
  | .int n => String.ofList (Number.intText n)
  | .float x => String.ofList (Number.floatText x)
  | .text s => Text.quote s

namespace Value

/-- Parts between an opening and a closing mark, with commas between them. -/
def enclosed (opening closing : String) (parts : List String) : String :=
  opening ++ Text.join ", " parts ++ closing

mutual

/-- A value as it is shown. -/
def shown : Value → String
  | .scalar s => s.shown
  | .list items => enclosed "[" "]" (shownItems items)
  | .mapping entries => enclosed "\x7b" "\x7d" (shownEntries entries)

/-- The items of a list, each as it is shown. -/
def shownItems : List Value → List String
  | [] => []
  | v :: vs => shown v :: shownItems vs

/-- The entries of a mapping, each as it is shown. -/
def shownEntries : List (Scalar × Value) → List String
  | [] => []
  | (k, v) :: es => (k.shown ++ ": " ++ shown v) :: shownEntries es

end

/-- A value in running text. -/
def plain : Value → String
  | .text s => s
  | v => v.shown

end Value

/-! ## What can be shown -/

/-- The scalar is no integer with too many digits. -/
def Scalar.isShowable : Scalar → Bool
  | .int n => (Number.digits n.natAbs).length ≤ Number.maxDigits
  | _ => true

namespace Value

mutual

/-- All scalars in the value can be shown, the keys of mappings among them. -/
def isShowable : Value → Bool
  | .scalar s => s.isShowable
  | .list items => showableItems items
  | .mapping entries => showableEntries entries

/-- The same for the items of a list. -/
def showableItems : List Value → Bool
  | [] => true
  | v :: vs => isShowable v && showableItems vs

/-- The same for the entries of a mapping. -/
def showableEntries : List (Scalar × Value) → Bool
  | [] => true
  | (k, v) :: es => k.isShowable && isShowable v && showableEntries es

end

/-- What is said where a value cannot be shown. -/
def unshowable : String :=
  "Exceeds the limit (" ++ toString Number.maxDigits ++
    " digits) for integer string conversion; use sys.set_int_max_str_digits() to increase the limit"

end Value

end IgnoreRules
