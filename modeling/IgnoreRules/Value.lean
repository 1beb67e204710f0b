/-
# Values of a configuration

A value is a scalar, a list, or a mapping whose keys are scalars and stand in the order in which
they were first written.

* `Scalar.same` compares keys: numbers are compared as numbers, whatever their kind;
* `Entries.get?` and `Entries.put` read and write one key of a mapping;
* `Value.walk` follows a path of text keys, `Entries.putPath` writes at the end of one;
* `Entries.merge` lays one mapping over another.
-/
import IgnoreRules.Number.Binary64

namespace IgnoreRules

/-! ## Scalars -/

/-- The values without parts, which are also the keys of mappings. -/
inductive Scalar where
  | null
  | bool (b : Bool)
  | int (n : Int)
  | float (x : Binary64)
  | text (s : String)
deriving DecidableEq, Repr

/-- The kinds of values. -/
inductive Kind where
  | null
  | bool
  | int
  | float
  | text
  | list
  | mapping
deriving DecidableEq, Repr

/-- The name of a kind in messages. -/
def Kind.name : Kind → String
  | .null => "NoneType"
  | .bool => "bool"
  | .int => "int"
  | .float => "float"
  | .text => "str"
  | .list => "list"
  | .mapping => "dict"

namespace Scalar

/-- The kind of a scalar. -/
def kind : Scalar → Kind
  | .null => .null
  | .bool _ => .bool
  | .int _ => .int
  | .float _ => .float
  | .text _ => .text

/-- A truth value counts as one or zero. -/
def ofBool (b : Bool) : Int := if b then 1 else 0

/-- The whole number that a scalar stands for. -/
def whole? : Scalar → Option Int
  | .bool b => some (ofBool b)
  | .int n => some n
  | _ => none

/-- Two scalars are one and the same key. -/
def same : Scalar → Scalar → Bool
  | .null, .null => true
  | .text s, .text t => s = t
  | .float x, .float y => x.same y
  | .float x, s => s.whole?.any x.eqInt
  | s, .float x => s.whole?.any x.eqInt
  | s, t =>
      match s.whole?, t.whole? with
      | some m, some n => m = n
      | _, _ => false

/-- Whether one scalar comes before another; `none` for scalars that have no order. -/
def before? : Scalar → Scalar → Option Bool
  | .text s, .text t => some (s < t)
  | .float x, .float y => some (x.lt y)
  | .float x, s => s.whole?.map x.ltInt
  | s, .float x => s.whole?.map (Binary64.intLt · x)
  | s, t =>
      match s.whole?, t.whole? with
      | some m, some n => some (m < n)
      | _, _ => none

@[simp] theorem same_text (s t : String) : same (.text s) (.text t) = decide (s = t) := rfl

end Scalar

/-! ## Values -/

/-- A value of a configuration. -/
inductive Value where
  | scalar (s : Scalar)
  | list (items : List Value)
  | mapping (entries : List (Scalar × Value))
deriving Repr

/-- The entries of a mapping, in order. -/
abbrev Entries := List (Scalar × Value)

namespace Value

/-- The value that says that there is none. -/
@[match_pattern] abbrev null : Value := .scalar .null

/-- A truth value. -/
@[match_pattern] abbrev bool (b : Bool) : Value := .scalar (.bool b)

/-- An integer. -/
@[match_pattern] abbrev int (n : Int) : Value := .scalar (.int n)

/-- A floating-point number. -/
@[match_pattern] abbrev float (x : Binary64) : Value := .scalar (.float x)

/-- A text. -/
@[match_pattern] abbrev text (s : String) : Value := .scalar (.text s)

instance : Inhabited Value := ⟨null⟩

/-- The kind of a value. -/
def kind : Value → Kind
  | .scalar s => s.kind
  | .list _ => .list
  | .mapping _ => .mapping

/-- The value is null. -/
def isNull : Value → Bool
  | .null => true
  | _ => false

/-- The value counts as true: it is neither null, nor false, nor zero, nor empty. -/
def isTrue : Value → Bool
  | .scalar .null => false
  | .scalar (.bool b) => b
  | .scalar (.int n) => n ≠ 0
  | .scalar (.float x) => !x.isZero
  | .scalar (.text s) => !s.isEmpty
  | .list items => !items.isEmpty
  | .mapping entries => !entries.isEmpty

end Value

/-! ## Entries -/

namespace Entries

/-- The value of a key. -/
def get? (key : Scalar) : Entries → Option Value
  | [] => none
  | (k, v) :: es => if k.same key then some v else get? key es

/-- Writes the value of a key.  A key that is there keeps its place, and a new one comes last. -/
def put (key : Scalar) (value : Value) : Entries → Entries
  | [] => [(key, value)]
  | (k, v) :: es => if k.same key then (k, value) :: es else (k, v) :: put key value es

/-- The mapping that arises by writing the given entries one after the other. -/
def ofList (es : List (Scalar × Value)) : Entries := es.foldl (fun acc e => put e.1 e.2 acc) []

@[simp] theorem get?_nil (key : Scalar) : get? key [] = none := rfl

@[simp] theorem get?_cons (key k : Scalar) (v : Value) (es : Entries) :
    get? key ((k, v) :: es) = if k.same key then some v else get? key es := rfl

@[simp] theorem put_nil (key : Scalar) (v : Value) : put key v [] = [(key, v)] := rfl

@[simp] theorem put_cons (key k : Scalar) (v w : Value) (es : Entries) :
    put key v ((k, w) :: es) = if k.same key then (k, v) :: es else (k, w) :: put key v es := rfl

end Entries

/-! ## Paths -/

/-- Follows a path of keys through mappings. -/
def Value.walk : List String → Value → Option Value
  | [], v => some v
  | p :: ps, .mapping es => (Entries.get? (.text p) es).bind (walk ps)
  | _ :: _, _ => none

/-- Why no value can be written at the end of a path: some place on the way holds a value of this
kind instead of a mapping. -/
inductive Blocked where
  /-- The place stands right before the end of the path. -/
  | last (kind : Kind)
  /-- The path goes on through the place. -/
  | within (kind : Kind)
deriving DecidableEq, Repr

/-- Writes a value at the end of a path, making the mappings on the way that are missing. -/
def Entries.putPath (value : Value) : List String → Entries → Except Blocked Entries
  | [], es => .ok es
  | [p], es => .ok (es.put (.text p) value)
  | p :: q :: ps, es =>
      match es.get? (.text p) with
      | none => (putPath value (q :: ps) []).map fun sub => es.put (.text p) (.mapping sub)
      | some (.mapping sub) =>
          (putPath value (q :: ps) sub).map fun sub => es.put (.text p) (.mapping sub)
      | some v => .error (if ps.isEmpty then .last v.kind else .within v.kind)

/-! ## Merging -/

mutual

/-- The value that stands where `v` is laid over what was there. -/
def Value.over (old : Option Value) : Value → Value
  | .mapping es =>
      match old with
      | some (.mapping bs) => .mapping (Entries.merge bs es)
      | _ => .mapping es
  | .scalar s => .scalar s
  | .list items => .list items

/-- Lays the second mapping over the first.  Where both hold a mapping these are merged;
otherwise the second one wins. -/
def Entries.merge (base : Entries) : Entries → Entries
  | [] => base
  | (k, v) :: es => Entries.merge (base.put k (Value.over (base.get? k) v)) es

end

end IgnoreRules
