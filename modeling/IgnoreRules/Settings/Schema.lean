/-
# The schema of configurations

A configuration is a mapping.  All that this program reads of it is under one key, where at most
two sections stand: one for logging and one for the cache.

* `Schema.check` accepts a value or says what is wrong with it;
* `Schema.Refusal.message` words the refusal.

A section with unknown keys is refused with the sorted list of them.  Keys that cannot be sorted
or listed make a refusal of their own.  A value that is refused is shown, if it can be.
-/
import IgnoreRules.Value.Shown
import IgnoreRules.Log.Severity

namespace IgnoreRules

/-! ## Keys -/

namespace Key

/-- The key that holds everything. -/
def root : String := "ignorematch"

/-- The section for logging. -/
def logging : String := "logging"

/-- The level of the loggers. -/
def level : String := "level"

/-- The file that is logged to. -/
def file : String := "file"

/-- The section for the cache. -/
def cache : String := "cache"

/-- The cache is in use. -/
def enabled : String := "enabled"

/-- How many entries the cache can hold. -/
def maxEntries : String := "max_entries"

/-- The full key of a field of a section. -/
def full (part field : String) : String := Text.join "." [root, part, field]

end Key

namespace Schema

/-! ## Refusals -/

/-- The mappings that a configuration consists of. -/
inductive Part where
  | document
  | root
  | logging
  | cache
deriving DecidableEq, Repr

/-- What is wrong with a configuration. -/
inductive Fault where
  /-- Something else than a mapping stands there. -/
  | notMapping (part : Part)
  /-- The part holds these keys, which it may not. -/
  | unknownKeys (part : Part) (names : List String)
  /-- This is no level. -/
  | level (v : Value)
  /-- This names no file. -/
  | file (v : Value)
  /-- This is no truth value. -/
  | enabled (v : Value)
  /-- This is no positive integer. -/
  | maxEntries (v : Value)

/-- Why unknown keys cannot be listed. -/
inductive KeyFault where
  /-- Two keys of these kinds have no order. -/
  | unordered (left right : Kind)
  /-- The key at this place of the sorted list is of this kind, and no text. -/
  | notText (index : Nat) (kind : Kind)
deriving DecidableEq, Repr

/-- Why a configuration is not accepted. -/
inductive Refusal where
  | fault (f : Fault)
  | keys (f : KeyFault)

/-- What messages call a part that is no mapping. -/
def Part.subject : Part → String
  | .document => "Configuration"
  | .root => "'ignorematch' section"
  | .logging => "Logging configuration"
  | .cache => "Cache configuration"

/-- What messages call the keys of a part. -/
def Part.keys : Part → String
  | .document => "configuration keys"
  | .root => "configuration sections"
  | .logging => "logging configuration fields"
  | .cache => "cache configuration fields"

/-- The wording of a fault. -/
def Fault.message : Fault → String
  | .notMapping part => part.subject ++ " must be a dictionary"
  | .unknownKeys part names => "Unknown " ++ part.keys ++ ": " ++ Text.join ", " names
  | .level v =>
      "Invalid log level: " ++ v.shown ++ ". Must be one of " ++
        Value.shown (.list (Log.Severity.all.map fun s => .text s.name))
  | .file v => "Log file must be a non-empty string: " ++ v.shown
  | .enabled v => "Cache enabled must be boolean: " ++ v.plain
  | .maxEntries v => "Cache max_entries must be a positive integer: " ++ v.plain

/-- The value that the wording of a fault shows. -/
def Fault.value? : Fault → Option Value
  | .level v | .file v | .enabled v | .maxEntries v => some v
  | .notMapping _ | .unknownKeys .. => none

/-- The fault can be put into words. -/
def Fault.isWordable (f : Fault) : Bool := f.value?.all Value.isShowable

/-- The wording of a fault of keys. -/
def KeyFault.message : KeyFault → String
  | .unordered left right =>
      "'<' not supported between instances of '" ++ left.name ++ "' and '" ++ right.name ++ "'"
  | .notText index kind =>
      "sequence item " ++ toString index ++ ": expected str instance, " ++ kind.name ++ " found"

/-- The wording of a refusal. -/
def Refusal.message : Refusal → String
  | .fault f => if f.isWordable then f.message else Value.unshowable
  | .keys f => f.message

/-- The name of the kind of a refusal. -/
def Refusal.name : Refusal → String
  | .fault f => if f.isWordable then "ValidationError" else "ValueError"
  | .keys _ => "TypeError"

/-- The code of a refusal that is reported as one; others have none. -/
def Refusal.code? : Refusal → Option Nat
  | .fault f => if f.isWordable then some 1 else none
  | .keys _ => none

/-! ## Unknown keys -/

/-- The kinds of the first two neighbours that have no order, the later one first. -/
def firstUnordered? : List Scalar → Option (Kind × Kind)
  | a :: b :: r => if (b.before? a).isNone then some (b.kind, a.kind) else firstUnordered? (b :: r)
  | _ => none

/-- The texts among the keys, or the first key that is none. -/
def texts : Nat → List Scalar → Except KeyFault (List String)
  | _, [] => .ok []
  | i, .text s :: r => (texts (i + 1) r).map (s :: ·)
  | i, k :: _ => .error (.notText i k.kind)

/-- The keys in ascending order, as texts. -/
def sortedNames (keys : List Scalar) : Except KeyFault (List String) :=
  match firstUnordered? keys with
  | some (left, right) => .error (.unordered left right)
  | none => texts 0 (keys.mergeSort fun a b => !((b.before? a).getD false))

/-- The keys of a mapping that are none of the allowed ones. -/
def unknownKeys (allowed : List String) (es : Entries) : List Scalar :=
  (es.map Prod.fst).filter fun k => !allowed.any fun a => k.same (.text a)

/-- Refuses a part with unknown keys. -/
def checkKeys (part : Part) (allowed : List String) (es : Entries) : Except Refusal Unit :=
  match unknownKeys allowed es with
  | [] => .ok ()
  | unknown =>
      match sortedNames unknown with
      | .error f => .error (.keys f)
      | .ok names => .error (.fault (.unknownKeys part names))

/-! ## The sections -/

/-- The entries of a part, which has to be a mapping. -/
def entriesOf (part : Part) : Value → Except Refusal Entries
  | .mapping es => .ok es
  | _ => .error (.fault (.notMapping part))

/-- Runs a check on the value of a key, if the key is there. -/
def checkAt (key : String) (check : Value → Except Refusal Unit) (es : Entries) :
    Except Refusal Unit :=
  match es.get? (.text key) with
  | some v => check v
  | none => .ok ()

/-- A level is the name of a severity. -/
def checkLevel (v : Value) : Except Refusal Unit :=
  match v with
  | .text s => if (Log.Severity.ofName? s).isSome then .ok () else .error (.fault (.level v))
  | _ => .error (.fault (.level v))

/-- A file is null or a text that is not empty. -/
def checkFile (v : Value) : Except Refusal Unit :=
  match v with
  | .null => .ok ()
  | .text s => if s.isEmpty then .error (.fault (.file v)) else .ok ()
  | _ => .error (.fault (.file v))

/-- The section for logging. -/
def checkLogging (v : Value) : Except Refusal Unit := do
  let es ← entriesOf .logging v
  checkKeys .logging [Key.level, Key.file] es
  checkAt Key.level checkLevel es
  checkAt Key.file checkFile es

/-- The cache is switched on or off by a truth value. -/
def checkEnabled (v : Value) : Except Refusal Unit :=
  match v with
  | .bool _ => .ok ()
  | _ => .error (.fault (.enabled v))

/-- The size of the cache is a positive integer. -/
def checkMaxEntries (v : Value) : Except Refusal Unit :=
  match v with
  | .int n => if n ≤ 0 then .error (.fault (.maxEntries v)) else .ok ()
  | _ => .error (.fault (.maxEntries v))

/-- The section for the cache. -/
def checkCache (v : Value) : Except Refusal Unit := do
  let es ← entriesOf .cache v
  checkKeys .cache [Key.enabled, Key.maxEntries] es
  checkAt Key.enabled checkEnabled es
  checkAt Key.maxEntries checkMaxEntries es

/-- What stands under the root key: null, or a mapping of the two sections. -/
def checkRoot (v : Value) : Except Refusal Unit :=
  if v.isNull then .ok ()
  else do
    let es ← entriesOf .root v
    checkKeys .root [Key.logging, Key.cache] es
    checkAt Key.logging checkLogging es
    checkAt Key.cache checkCache es

/-- A whole configuration. -/
def check (v : Value) : Except Refusal Unit := do
  let es ← entriesOf .document v
  checkAt Key.root checkRoot es

end Schema

end IgnoreRules
