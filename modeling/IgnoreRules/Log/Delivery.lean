/-
# Delivering log records

A record goes to every handler of its channel, in the order of their attachment.  A handler keeps
records, writes them to the console, or adds them to a log file.  Where a channel has no handler,
warnings and worse are written to the console without any addition.

The time of a record, the trace of a problem and what is said of a record that could not be added
to its file come from outside; `Layout` holds their texts.
-/
import IgnoreRules.Log.LogFile
import IgnoreRules.Log.Record

namespace IgnoreRules.Log

/-- A problem that a record reports. -/
structure Problem where
  /-- The name of its kind. -/
  name : String
  /-- The same name with the place where the kind is defined. -/
  fullName : String
  text : String
  /-- The problem came up while the program ran, and has a trace. -/
  raised : Bool
deriving DecidableEq, Repr

/-- What a channel hands to its handlers. -/
structure Record where
  /-- The name of the channel. -/
  channel : String
  severity : Severity
  /-- The message with its context. -/
  message : String
  context : Entries
  problem : Option Problem

/-- The context of the record can be shown. -/
def Record.isShowable (r : Record) : Bool := (Value.mapping r.context).isShowable

/-- The texts of what a record does not hold itself. -/
structure Layout where
  /-- The time in front of a line. -/
  stamp : String
  /-- The lines in front of a problem that came up while the program ran. -/
  trace : String
  /-- What the console shows when a record could not be added to its file. -/
  lost : String := ""

/-! ## Lines -/

/-- The line of a problem, behind its trace. -/
def Problem.lines (p : Problem) (layout : Layout) : String :=
  (if p.raised then layout.trace ++ "\n" else "") ++ p.fullName ++
    (if p.text.isEmpty then "" else ": " ++ p.text)

/-- A line and, on lines of its own, the problem of a record. -/
def Record.withProblem (r : Record) (layout : Layout) (line : String) : String :=
  match r.problem with
  | none => line ++ "\n"
  | some p =>
      (if line.toList.getLast? = some '\n' then line else line ++ "\n") ++ p.lines layout ++ "\n"

/-- The line of a record on the console. -/
def Record.consoleLine (r : Record) (layout : Layout) : String :=
  Text.join " - " [layout.stamp, r.channel, r.severity.name, r.message]

/-- The line of a record in a file, which ends with the context. -/
def Record.fileLine (r : Record) (layout : Layout) : String :=
  Text.join " - " [r.consoleLine layout, Value.shown (.mapping r.context)]

/-! ## Deliveries -/

/-- Where the records of a handler go. -/
inductive Sink where
  | kept
  | console
  /-- To the log file of a path, through a stream. -/
  | file (path : List String) (stream : Nat)
deriving DecidableEq, Repr

/-- The stream of a handler that writes to a file. -/
def Sink.stream? : Sink → Option Nat
  | .file _ stream => some stream
  | _ => none

/-- The handler writes to a file. -/
def Sink.isFile (k : Sink) : Bool := k.stream?.isSome

/-- What a handler does with a record. -/
inductive Delivery where
  /-- The handler keeps the record. -/
  | kept (handler : Nat) (r : Record)
  /-- The text is written to the console. -/
  | console (text : String)
  /-- The text is added to the log file of the path, through the stream. -/
  | file (path : List String) (stream : Nat) (text : String)

/-- What a handler with a sink does with a record. -/
def Sink.deliver (handler : Nat) (r : Record) (layout : Layout) : Sink → Delivery
  | .kept => .kept handler r
  | .console => .console (r.withProblem layout (r.consoleLine layout))
  | .file path stream => .file path stream (r.withProblem layout (r.fileLine layout))

/-- What is done with a record that no handler takes. -/
def unhandled (r : Record) (layout : Layout) : List Delivery :=
  if r.severity.rank < Severity.warning.rank then []
  else [.console (r.withProblem layout r.message)]

/-! ## Effects -/

/-- Carries a delivery out, and gives the text that it writes to the console. -/
def Delivery.perform (layout : Layout) (d : Directory) : Delivery → Directory × String
  | .kept _ _ => (d, "")
  | .console text => (d, text)
  | .file path stream text =>
      let (d, done) := Directory.emit path stream text d
      (d, if done then "" else layout.lost)

/-- Carries deliveries out one after the other. -/
def perform (layout : Layout) (d : Directory) : List Delivery → Directory × String
  | [] => (d, "")
  | e :: es =>
      let (d, text) := e.perform layout d
      let (d, rest) := perform layout d es
      (d, text ++ rest)

end IgnoreRules.Log
