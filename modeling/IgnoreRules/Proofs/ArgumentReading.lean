/-
# Reading arguments

A command line that tests paths has choices in front, then the pattern, then the paths.  Choices may
stand in any order and be repeated; of several files with settings the last one counts.

* `Word.IsOperand` holds of words that can be given as a value, a pattern or a path;
* `Draft.readWords_choices`, `Draft.readWords_plain` follow the reading word by word;
* `parse_commandLine` : the command line is read as it was meant.
-/
import IgnoreRules.CommandLine.Arguments

namespace IgnoreRules.CommandLine

/-! ## Choices -/

/-- What can be asked for in front of the pattern. -/
inductive Choice where
  | flags
  | debug
  | config (file : String)
deriving DecidableEq

namespace Choice

/-- How a choice is written. -/
def words : Choice → List String
  | .flags => ["--flags"]
  | .debug => ["--debug"]
  | .config file => ["-c", file]

/-- The words of a choice once they are read. -/
def readWords : Choice → List Word
  | .flags => [.switch .flags false none]
  | .debug => [.switch .debug false none]
  | .config file => [.switch .config true none, .plain (.operand file)]

/-- The file with settings that is chosen. -/
def file? : Choice → Option String
  | .config file => some file
  | _ => none

end Choice

/-- A command line with choices, a pattern and paths. -/
def commandLine (choices : List Choice) (pattern : String) (paths : List String) : List String :=
  choices.flatMap Choice.words ++ pattern :: paths

/-- What such a command line means. -/
def chosen (choices : List Choice) (pattern : String) (paths : List String) : Arguments where
  pattern
  paths
  config := (choices.filterMap Choice.file?).getLast?
  flags := .flags ∈ choices
  debug := .debug ∈ choices

/-! ## Single words -/

namespace Word

/-- The word is no switch, and is not taken for one. -/
def IsOperand (w : String) : Prop :=
  w ≠ Plain.dividerText ∧ read w = .ok (.plain (.operand w))

/-- Words without a dash in front are operands. -/
theorem isOperand_of_head {w : String} (h : w.toList.head? ≠ some '-') : IsOperand w := by
  constructor
  · rintro rfl
    exact h rfl
  · unfold read
    split
    · next c cs hw =>
      rw [hw] at h
      exact absurd rfl h
    · rfl

/-- Words are read one by one. -/
theorem readAll_cons {w : String} {word : Word} {ws : List String} {words : List Word}
    (hne : w ≠ Plain.dividerText) (hw : read w = .ok word) (hws : readAll ws = .ok words) :
    readAll (w :: ws) = .ok (word :: words) := by
  rw [readAll, if_neg hne, hw, hws]
  rfl

/-- Operands are read as they are. -/
theorem readAll_operands {ws : List String} (h : ∀ w ∈ ws, IsOperand w) :
    readAll ws = .ok (ws.map fun w => .plain (.operand w)) := by
  induction ws with
  | nil => rfl
  | cons w ws ih =>
    obtain ⟨hne, hw⟩ := h w List.mem_cons_self
    exact readAll_cons hne hw (ih fun v hv => h v (List.mem_cons_of_mem w hv))

/-- Choices are read as what they are, whatever stands behind them. -/
theorem readAll_choices {choices : List Choice} {ws : List String} {words : List Word}
    (hfiles : ∀ file, .config file ∈ choices → IsOperand file) (hws : readAll ws = .ok words) :
    readAll (choices.flatMap Choice.words ++ ws)
      = .ok (choices.flatMap Choice.readWords ++ words) := by
  induction choices with
  | nil => exact hws
  | cons choice choices ih =>
    have hrest := ih fun file hf => hfiles file (List.mem_cons_of_mem choice hf)
    rw [List.flatMap_cons, List.flatMap_cons, List.append_assoc, List.append_assoc]
    cases choice with
    | flags => exact readAll_cons (by decide) rfl hrest
    | debug => exact readAll_cons (by decide) rfl hrest
    | config file =>
      obtain ⟨hne, hfile⟩ := hfiles file List.mem_cons_self
      exact readAll_cons (by decide) rfl (readAll_cons hne hfile hrest)

end Word

/-! ## All words -/

namespace Draft

/-- No operand stands before the first word or between two switches. -/
theorem takeRun_nil (d : Draft) : d.takeRun [] = d := by
  have hpaths : ∀ d : Draft, d.takePaths [] = d := by
    intro d
    rw [takePaths, if_neg (by simp), stray, List.map_nil, List.append_nil]
  unfold takeRun
  split
  · exact hpaths d
  · exact hpaths d

/-- What a choice adds to a draft. -/
def choose (d : Draft) : Choice → Draft
  | .flags => { d with flags := true }
  | .debug => { d with debug := true }
  | .config file => { d with config := some file }

/-- A choice is taken as soon as its words are read. -/
theorem readWords_choice (d : Draft) (choice : Choice) (words : List Word) :
    d.readWords [] (choice.readWords ++ words) = (d.choose choice).readWords [] words := by
  cases choice with
  | flags =>
    show readWords ((d.takeRun []).takeBundle (.alone .flags) "") [] words = _
    rw [takeRun_nil]
    rfl
  | debug =>
    show readWords ((d.takeRun []).takeBundle (.alone .debug) "") [] words = _
    rw [takeRun_nil]
    rfl
  | config file =>
    show readWords ((d.takeRun []).takeBundle (.alone .config) file) [] words = _
    rw [takeRun_nil]
    rfl

/-- Choices are taken one after the other. -/
theorem readWords_choices (d : Draft) (choices : List Choice) (words : List Word) :
    d.readWords [] (choices.flatMap Choice.readWords ++ words)
      = (choices.foldl choose d).readWords [] words := by
  induction choices generalizing d with
  | nil => rfl
  | cons choice choices ih =>
    rw [List.flatMap_cons, List.append_assoc, readWords_choice, ih, List.foldl_cons]

/-- Of several files the last one counts, and the other choices count however often they are
made. -/
theorem foldl_choose (d : Draft) (choices : List Choice) :
    choices.foldl choose d = { d with
      config := (choices.filterMap Choice.file?).getLast?.or d.config
      flags := d.flags || decide (.flags ∈ choices)
      debug := d.debug || decide (.debug ∈ choices) } := by
  induction choices generalizing d with
  | nil => simp
  | cons choice choices ih =>
    rw [List.foldl_cons, ih]
    cases choice with
    | flags => simp [choose, Choice.file?]
    | debug => simp [choose, Choice.file?]
    | config file => simp [choose, Choice.file?, List.getLast?_cons]

/-- Plain words at the end of a command line make one run. -/
theorem readWords_plain (d : Draft) (run ps : List Plain) :
    d.readWords run (ps.map .plain) = (d.takeRun (run ++ ps)).close := by
  induction ps generalizing run with
  | nil => rw [List.append_nil]; rfl
  | cons p ps ih =>
    show d.readWords (run ++ [p]) (ps.map .plain) = _
    rw [ih, List.append_assoc, List.singleton_append]

/-- The first of several operands is the pattern, and the others are the paths. -/
theorem takeRun_operands {d : Draft} {pattern : String} {paths : List String}
    (hpattern : d.pattern = none) (hpaths : d.paths = none) (hne : paths ≠ [])
    (hdivider : Plain.dividerText ∉ paths) :
    d.takeRun ((pattern :: paths).map .operand)
      = { d with pattern := some pattern, paths := some paths } := by
  have htexts : (paths.map Plain.operand).map Plain.text = paths := by
    rw [List.map_map]
    exact List.map_id paths
  obtain ⟨path, rest, rfl⟩ := List.exists_cons_of_ne_nil hne
  unfold takeRun
  rw [hpattern]
  show takePaths { d with pattern := some pattern } ((path :: rest).map .operand) = _
  -- one divider would be left out of the paths, but there is none
  rw [takePaths, if_pos (by rw [hpaths]; rfl), htexts, List.erase_of_not_mem hdivider]

end Draft

/-- **A command line is read as it was meant**: every choice in front of the pattern counts, and
all words behind it are paths. -/
theorem parse_commandLine {choices : List Choice} {pattern : String} {paths : List String}
    (hfiles : ∀ file, .config file ∈ choices → Word.IsOperand file)
    (hoperands : ∀ w ∈ pattern :: paths, Word.IsOperand w) (hne : paths ≠ []) :
    Arguments.parse (commandLine choices pattern paths)
      = .ok (.test (chosen choices pattern paths)) := by
  have hread := Word.readAll_choices hfiles (Word.readAll_operands hoperands)
  have hdivider : Plain.dividerText ∉ paths := fun hmem =>
    (hoperands _ (List.mem_cons_of_mem pattern hmem)).1 rfl
  have hwords : (pattern :: paths).map (fun w => Word.plain (.operand w))
      = ((pattern :: paths).map Plain.operand).map .plain := by
    rw [List.map_map]
    rfl
  rw [Arguments.parse, commandLine, hread]
  show Draft.empty.readWords [] _ = _
  rw [hwords, Draft.readWords_choices, Draft.foldl_choose, Draft.readWords_plain, List.nil_append,
    Draft.takeRun_operands rfl rfl hne hdivider]
  simp [Draft.close, Draft.empty, chosen]

end IgnoreRules.CommandLine
