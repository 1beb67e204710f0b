/-
# Words of the command line

A word that starts with a dash is a switch, if it can be read as one: by its full spelling, by the
beginning of a long spelling that no other switch shares, or by a short spelling with more text
behind it.  All other words are operands, and so is every word behind the divider `--`.

The text behind a short spelling is the value of the switch or, if that takes none, names further
switches by their letters; `Bundle.read` takes such a word apart.
-/
import IgnoreRules.CommandLine.Switch
import IgnoreRules.Text.CharacterClass

namespace IgnoreRules.CommandLine

/-! ## Words -/

/-- A word that is no switch and does not look like one. -/
inductive Plain where
  | operand (text : String)
  /-- No word behind this one is a switch. -/
  | divider
deriving DecidableEq, Repr

namespace Plain

/-- How the divider is written. -/
def dividerText : String := "--"

/-- The word as it was written. -/
def text : Plain → String
  | .operand t => t
  | .divider => dividerText

/-- The word is an operand. -/
def isOperand : Plain → Bool
  | .operand _ => true
  | .divider => false

end Plain

/-- What a single word is. -/
inductive Word where
  | plain (p : Plain)
  /-- A switch by a short or a long spelling, and the text that is attached to it. -/
  | switch (s : Switch) (short : Bool) (attached : Option (List Char))
  /-- The word looks like a switch, and is none. -/
  | unknown (text : String)
deriving DecidableEq, Repr

namespace Word

/-! ## Reading a word -/

/-- The text before the first equals sign, and the text behind it if there is one. -/
def splitAssigned : List Char → List Char × Option (List Char)
  | [] => ([], none)
  | c :: cs =>
      if c = '=' then ([], some cs)
      else
        let (before, behind) := splitAssigned cs
        (c :: before, behind)

/-- One digit at least, and nothing else. -/
def isDigits (cs : List Char) : Bool :=
  !cs.isEmpty && cs.all fun c => (Text.digitValue? c).isSome

/-- Digits with or without a point, which has a digit behind it.  A line feed may follow. -/
def isNumber (cs : List Char) : Bool :=
  let body := if cs.getLast? = some '\n' then cs.dropLast else cs
  let fraction := body.dropWhile (· ≠ '.')
  isDigits body ||
    (body.takeWhile (· ≠ '.')).all (fun c => (Text.digitValue? c).isSome) &&
      isDigits (fraction.drop 1)

/-- The switches that a word may stand for, each with its spelling. -/
def candidates : List Char → List (String × Word)
  | '-' :: '-' :: cs =>
      let (before, behind) := splitAssigned cs
      (Switch.startingWith ('-' :: '-' :: before)).map fun e =>
        (e.1, .switch e.2 false behind)
  | '-' :: c :: cs =>
      match Switch.ofSpelling? ['-', c] with
      | some s => [(String.ofList ['-', c], .switch s true (some cs))]
      | none => []
  | _ => []

/-- The switch that a word spells out in full, alone or before an equals sign. -/
def spelledOut? (cs : List Char) : Option Word :=
  let short := cs[1]? ≠ some '-'
  match Switch.ofSpelling? cs with
  | some s => some (.switch s short none)
  | none =>
      match splitAssigned cs with
      | (_, none) => none
      | (before, some behind) =>
          (Switch.ofSpelling? before).map fun s => .switch s short (some behind)

/-- Reads a word before the divider.  What looks like a negative number or holds a blank is an
operand, unless it is a switch. -/
def read (w : String) : Except UsageFault Word :=
  match w.toList with
  | '-' :: c :: cs =>
      match spelledOut? ('-' :: c :: cs) with
      | some word => .ok word
      | none =>
          match candidates ('-' :: c :: cs) with
          | [(_, word)] => .ok word
          | [] =>
              .ok (if isNumber (c :: cs) || ' ' ∈ c :: cs then .plain (.operand w) else .unknown w)
          | many => .error (.ambiguous w (many.map Prod.fst))
  | _ => .ok (.plain (.operand w))

/-- Reads all words. -/
def readAll : List String → Except UsageFault (List Word)
  | [] => .ok []
  | w :: ws =>
      if w = Plain.dividerText then
        .ok (.plain .divider :: ws.map fun w => .plain (.operand w))
      else
        match read w with
        | .error f => .error f
        | .ok word => (readAll ws).map (word :: ·)

end Word

/-! ## Bundles -/

/-- What stands at the end of a word with switches. -/
inductive Ending where
  | nothing
  /-- The value of a switch, or that it has none after all. -/
  | value (s : Switch) (text : Option String)
  /-- A switch whose value is the next word. -/
  | awaits (s : Switch)
deriving DecidableEq, Repr

/-- The switches of one word. -/
structure Bundle where
  /-- Those that take no value. -/
  switches : List Switch
  ending : Ending
deriving DecidableEq, Repr

namespace Bundle

/-- A switch that nothing is attached to. -/
def alone (s : Switch) : Bundle := if s.takesValue then ⟨[], .awaits s⟩ else ⟨[s], .nothing⟩

/-- A switch without a value before a bundle. -/
def cons (s : Switch) (b : Bundle) : Bundle := { b with switches := s :: b.switches }

/-- A switch with the text attached to it as its value.  The divider is dropped wherever it stands
among values, and leaves the switch without one. -/
def valued (s : Switch) (attached : List Char) : Bundle :=
  let t := String.ofList attached
  ⟨[], .value s (if t = Plain.dividerText then none else some t)⟩

/-- A short switch with the text attached to it. -/
def readShort (s : Switch) : List Char → Except UsageFault Bundle
  | [] => if s.takesValue then .ok (valued s []) else .error (.unusedValue s "")
  | c :: cs =>
      if s.takesValue then .ok (valued s (c :: cs))
      else
        match Switch.ofSpelling? ['-', c], cs with
        | none, _ => .error (.unusedValue s (String.ofList (c :: cs)))
        | some t, [] => .ok (cons s (alone t))
        | some t, cs => (readShort t cs).map (cons s)

/-- A long switch with the text behind its equals sign. -/
def readLong (s : Switch) (attached : List Char) : Except UsageFault Bundle :=
  if s.takesValue then .ok (valued s attached)
  else .error (.unusedValue s (String.ofList attached))

/-- The switches of a word. -/
def read (s : Switch) (short : Bool) : Option (List Char) → Except UsageFault Bundle
  | none => .ok (alone s)
  | some attached => if short then readShort s attached else readLong s attached

end Bundle

end IgnoreRules.CommandLine
