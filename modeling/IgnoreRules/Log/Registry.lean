/-
# Loggers and their channels

A logger writes to the channel of its name, and all loggers of one name share it: its level and
its handlers are what the latest step on that name made them, whatever is done under other names.
Above the context of a single call lies a stack of frames that all loggers share.

* `Registry.create` makes a logger and sets up its channel anew;
* `Registry.shared` gives the one logger that stands for a name;
* `Registry.log` and `Registry.report` say what is delivered for a call, unless its context cannot
  be shown.
-/
import IgnoreRules.Log.Delivery

namespace IgnoreRules.Log

/-! ## Levels -/

/-- How a level is given: by the name of a severity, or as a rank. -/
inductive Level where
  | named (name : String)
  | rank (n : Int)
deriving DecidableEq, Repr

/-- Why a level cannot be used. -/
inductive LevelFault where
  /-- No severity has this name. -/
  | unknown (name : String)
  /-- No severity has this rank. -/
  | unnamed (n : Int)
deriving DecidableEq, Repr

/-- The wording of a fault.  An unknown name is shown in capitals. -/
def LevelFault.message : LevelFault → String
  | .unknown name => Text.quote (String.ofList (Text.upper name.toList))
  | .unnamed n =>
      if (Value.int n).isShowable then (Value.int n).shown ++ " is not a valid LogLevel"
      else Value.unshowable

/-- The name of the kind of a fault. -/
def LevelFault.name : LevelFault → String
  | .unknown _ => "KeyError"
  | .unnamed _ => "ValueError"

/-- The rank of a level. -/
def Level.rank? : Level → Except LevelFault Int
  | .rank n => .ok n
  | .named name =>
      match Severity.ofName? name with
      | some s => .ok s.rank
      | none => .error (.unknown name)

/-! ## The registry -/

/-- The level and the handlers of a name. -/
structure Channel where
  /-- The least rank of the records that the channel delivers. -/
  level : Int
  /-- The handlers, in the order of their attachment. -/
  handlers : List Nat
deriving DecidableEq, Repr

/-- A logger, told from others of its name by a serial number. -/
structure Logger where
  serial : Nat
  name : String
deriving DecidableEq, Repr

/-- All loggers with their channels, handlers and frames. -/
structure Registry where
  /-- The sinks of the handlers, by their numbers. -/
  sinks : List Sink
  /-- The channels by their names. -/
  channels : List (String × Channel)
  /-- The frames, the latest first. -/
  frames : List Entries
  /-- How many loggers were made. -/
  made : Nat
  /-- The loggers that stand for their names. -/
  shared : List (String × Logger)

namespace Registry

/-- The registry before any logger is made. -/
def empty : Registry := ⟨[], [], [], 0, []⟩

/-- The name of the channel that a logger of a name writes to. -/
def channelName (name : String) : String := if name.isEmpty then "root" else name

/-- A channel that nothing was done to. -/
def plainChannel : Channel := ⟨Severity.warning.rank, []⟩

/-- The channel of a name. -/
def channel (g : Registry) (name : String) : Channel :=
  (g.channels.lookup (channelName name)).getD plainChannel

/-- Changes the channel of a name. -/
def setChannel (g : Registry) (name : String) (c : Channel) : Registry :=
  let key := channelName name
  { g with channels := (key, c) :: g.channels.filter fun e => e.1 ≠ key }

/-! ## Handlers -/

/-- Makes a handler. -/
def addSink (g : Registry) (sink : Sink) : Nat × Registry :=
  (g.sinks.length, { g with sinks := g.sinks ++ [sink] })

/-- The handlers without later repetitions. -/
def withoutRepeats (handlers : List Nat) : List Nat :=
  handlers.foldl (fun acc h => if h ∈ acc then acc else acc ++ [h]) []

/-- Attaches a handler, unless it is attached already. -/
def attach (g : Registry) (name : String) (handler : Nat) : Registry :=
  let c := g.channel name
  if handler ∈ c.handlers then g
  else g.setChannel name { c with handlers := c.handlers ++ [handler] }

/-- Detaches a handler. -/
def detach (g : Registry) (name : String) (handler : Nat) : Registry :=
  let c := g.channel name
  g.setChannel name { c with handlers := c.handlers.filter (· ≠ handler) }

/-- The handler writes to a file. -/
def writesFile (g : Registry) (handler : Nat) : Bool := (g.sinks[handler]?).any Sink.isFile

/-- The streams of the handlers of a name that write to files. -/
def streamsOf (g : Registry) (name : String) : List Nat :=
  (g.channel name).handlers.filterMap fun h => (g.sinks[h]?).bind Sink.stream?

/-- Detaches the handlers that write to files. -/
def detachFiles (g : Registry) (name : String) : Registry :=
  let c := g.channel name
  g.setChannel name { c with handlers := c.handlers.filter fun h => !g.writesFile h }

/-! ## Levels of channels -/

/-- Sets the level of a channel. -/
def setLevel (g : Registry) (name : String) (level : Level) : Except LevelFault Registry :=
  level.rank?.map fun n => g.setChannel name { g.channel name with level := n }

/-- The severity that the level of a channel stands for. -/
def severity (g : Registry) (name : String) : Except LevelFault Severity :=
  let n := (g.channel name).level
  match Severity.ofRank? n with
  | some s => .ok s
  | none => .error (.unnamed n)

/-- A channel delivers records of this rank: the rank is positive and no less than the level. -/
def admits (g : Registry) (name : String) (rank : Int) : Bool :=
  0 < rank && (g.channel name).level ≤ rank

/-! ## Loggers -/

/-- Makes a logger, and gives its channel a level and handlers in place of those it had.  When no
handlers are named there is one that writes to the console. -/
def create (g : Registry) (name : String) (level : Level) (handlers : Option (List Nat)) :
    Except LevelFault (Logger × Registry) :=
  level.rank?.map fun n =>
    let (handlers, g) :=
      match handlers with
      | some hs => (withoutRepeats hs, g)
      | none => let (h, g) := g.addSink .console; ([h], g)
    (⟨g.made, name⟩, { g.setChannel name ⟨n, handlers⟩ with made := g.made + 1 })

/-- The level of loggers that are given none. -/
def defaultLevel : Level := .rank Severity.warning.rank

/-- Makes a logger that stands for its name. -/
def share (g : Registry) (logger : Logger) : Registry :=
  { g with
    shared := (logger.name, logger) :: g.shared.filter fun e => e.1 ≠ logger.name }

/-- The logger that stands for a name, which is made when there is none. -/
def sharedLogger (g : Registry) (name : String) : Logger × Registry :=
  match g.shared.lookup name with
  | some logger => (logger, g)
  | none =>
      match g.create name defaultLevel none with
      | .ok (logger, g) => (logger, g.share logger)
      | .error _ => (⟨g.made, name⟩, g)

/-- Forgets which loggers stand for their names. -/
def resetShared (g : Registry) : Registry := { g with shared := [] }

/-! ## Frames -/

/-- Puts a frame on the stack. -/
def push (g : Registry) (frame : Entries) : Registry := { g with frames := frame :: g.frames }

/-- Takes the latest frame off the stack. -/
def pop (g : Registry) : Registry := { g with frames := g.frames.drop 1 }

/-- The context of a call: its own entries laid over the frames, the latest of which comes
last. -/
def context (g : Registry) (own : Entries) : Entries :=
  overlay (g.frames.reverse.foldl overlay []) own

/-! ## Logging -/

/-- What is delivered for a record. -/
def deliver (g : Registry) (name : String) (layout : Layout) (r : Record) : List Delivery :=
  if g.admits name r.severity.rank then
    match (g.channel name).handlers with
    | [] => unhandled r layout
    | hs => hs.map fun h => (g.sinks[h]?.getD .kept).deliver h r layout
  else []

/-- The record of an entry that is logged under a name. -/
def entryRecord (g : Registry) (name : String) (e : Entry) : Record :=
  let context := g.context e.context
  ⟨channelName name, e.severity, messageWith e.message context, context, none⟩

/-- The record of a problem that is reported under a name. -/
def problemRecord (g : Registry) (name : String) (message : String) (p : Problem)
    (own : Entries) : Record :=
  let context := overlay (g.context own)
    [(.text "exception_type", .text p.name), (.text "exception_message", .text p.text)]
  ⟨channelName name, .error, messageWith message context, context, some p⟩

/-- What is delivered for an entry that is logged under a name; `none` if its context cannot be
shown, which is found out only for an entry that the level lets pass. -/
def log (g : Registry) (name : String) (layout : Layout) (e : Entry) : Option (List Delivery) :=
  let r := g.entryRecord name e
  if g.admits name e.severity.rank && !r.isShowable then none else some (g.deliver name layout r)

/-- What is delivered for a problem that is reported under a name; `none` if its context cannot be
shown, whatever the level is. -/
def report (g : Registry) (name : String) (layout : Layout) (message : String) (p : Problem)
    (own : Entries) : Option (List Delivery) :=
  let r := g.problemRecord name message p own
  if r.isShowable then some (g.deliver name layout r) else none

end Registry

end IgnoreRules.Log
