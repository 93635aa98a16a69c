import Bindery.Log
import Bindery.Machine.Child

/-!
# The machine

A `Machine` holds what happened while commands ran: the commands that were
handed to the system and the events that were logged, and the readings of the
clock to come.

`Machine.execute` runs a command, and `Machine.run` also logs how it ended.  The
system may refuse a command that was handed to it: it takes no word and no
directory with a character that no name has, and waits for no process too long.
A command with a word that is no text cannot be logged, and for
`Machine.runWords` that is a fault.
-/

namespace Bindery

/-- What happened so far. -/
structure Machine where
  /-- The commands that were handed to the system, first one first. -/
  commands : List Command := []
  /-- What was logged, first event first. -/
  events : List Event := []
  /-- The readings of the clock to come.  The last one stays. -/
  clock : List Number := []
deriving Repr

namespace Machine

/-- The next reading of the clock. -/
def now (m : Machine) : Number := m.clock.headD (.float 0.0)

/-- The machine behind a reading of the clock. -/
def tick (m : Machine) : Machine :=
  match m.clock with
  | _ :: next :: rest => { m with clock := next :: rest }
  | _ => m

/-- The machine with an event logged. -/
def logged (m : Machine) (e : Event) : Machine := { m with events := m.events ++ [e] }

/-- Why a command has no result. -/
inductive Fault where
  /-- A time is out of range: the one that it took, or the one that it may take. -/
  | duration (fault : Number.Fault)
  /-- There is no program to name. -/
  | emptyCommand
  /-- A word of the command is no text. -/
  | wordKind
  /-- The system does not take a word or the name of the directory. -/
  | refused (fault : FileSystem.PathFault)
  /-- The time limit is no number. -/
  | limitKind
  /-- A number is too long to be written. -/
  | unwritable
deriving DecidableEq, Repr

/-- The words for a fault. -/
def Fault.message : Fault → String
  | .duration fault => fault.message
  | .emptyCommand => "list index out of range"
  | .wordKind => "a word of the command is no text"
  | .refused fault => fault.message
  | .limitKind => "the time limit is no number"
  | .unwritable => Number.lengthMessage none

/-! ## Running -/

/-- The limit that a number of seconds sets: none if it is not above 0. -/
def limit? (seconds : Value) : Except Fault (Option Value) :=
  match seconds.number? with
  | none => .error .limitKind
  | some n => .ok (if n.isPositive then some seconds else none)

/-- Why the system does not take a word. -/
def wordFault? : Value → Option Fault
  | .text s => (FileSystem.pathFault? s).map .refused
  | _ => some .wordKind

/-- Why the system does not take the words of a command. -/
def wordsFault? (argv : List Value) : Option Fault :=
  if argv.isEmpty then some .emptyCommand else argv.findSome? wordFault?

/-- Why the system refuses a command before a child is started. -/
def refusal? (child : Child) (c : Command) : Option Fault :=
  (if child.isProcess then wordsFault? c.argv else none) <|>
    (FileSystem.pathFault? c.cwd.text).map .refused

/-- Why the system does not wait for the child of a command. -/
def waitFault? (child : Child) (c : Command) : Option Fault :=
  if child.isProcess then
    ((c.timeout.bind Value.number?).bind fun n => n.waitFault? c.capture).map .duration
  else none

/-- Why a command has no result, for the way its child ends. -/
def faultOf? (child : Child) (c : Command) (seconds : Value) : Ending → Option Fault
  | .notStarted _ _ => if c.argv.isEmpty then some .emptyCommand else none
  | .stopped _ _ =>
      waitFault? child c <|> if seconds.isWritable then none else some .unwritable
  | .ended _ _ _ => waitFault? child c

/-- Runs a command in a directory with a limit of seconds.  The clock is read when
it starts and when it ends. -/
def execute (w : World) (argv : List Value) (cwd : Path) (capture : Bool) (seconds : Value)
    (m : Machine) : Except Fault Result × Machine :=
  let started := m.now
  let m := m.tick
  match limit? seconds with
  | .error fault => (.error fault, m)
  | .ok limit =>
      let c : Command := ⟨argv, cwd, capture, limit⟩
      let child := w.children m.commands c
      let ending := child.ending w c
      let m := { m with commands := m.commands ++ [c] }
      match refusal? child c <|> faultOf? child c seconds ending with
      | some fault => (.error fault, m)
      | none =>
          match Number.durationMillis started m.now with
          | .error fault => (.error (.duration fault), m.tick)
          | .ok millis => (.ok (ending.result c seconds millis), m.tick)

/-! ## Reports -/

/-- The words of a command. -/
def commandLine (argv : List Text) : Text := List.intercalate " " argv

/-- The event for a command that ended. -/
def runEvent (argv : List Text) (cwd : Path) (r : Result) : Event :=
  ⟨if r.code = 0 then "info" else "error", "process", "run-command",
    [("command", .text (commandLine argv)), ("cwd", .text cwd.text), ("code", .int r.code),
      ("duration_ms", .int r.millis)]⟩

/-- The event for the output of a command. -/
def outputEvent (argv : List Text) (r : Result) : Event :=
  ⟨"debug", "process", "output",
    [("command", .text (commandLine argv)), ("output", .text r.output)]⟩

/-- The machine with the events of a command that ended.  An event with a number that
is too long is a fault if it would be shown. -/
def report (ctx : Context) (argv : List Text) (cwd : Path) (capture : Bool) (r : Result)
    (m : Machine) : Except Fault Result × Machine :=
  let e := runEvent argv cwd r
  if e.isShown ctx && !(Number.int r.millis).isWritable then (.error .unwritable, m)
  else
    let m := m.logged e
    (.ok r, if capture && r.output ≠ [] then m.logged (outputEvent argv r) else m)

/-- Runs a command and logs how it ended. -/
def run (w : World) (ctx : Context) (argv : List Text) (cwd : Path) (capture : Bool)
    (seconds : Value) (m : Machine) : Except Fault Result × Machine :=
  match m.execute w (argv.map .text) cwd capture seconds with
  | (.ok r, m) => m.report ctx argv cwd capture r
  | (.error fault, m) => (.error fault, m)

/-- Runs a command of which a word is no text. -/
def runUnnamed (w : World) (words : List Value) (cwd : Path) (capture : Bool) (seconds : Value)
    (m : Machine) : Except Fault Result × Machine :=
  match m.execute w words cwd capture seconds with
  | (.ok _, m) => (.error .wordKind, m)
  | (.error fault, m) => (.error fault, m)

/-- Runs a command of any words and logs how it ended. -/
def runWords (w : World) (ctx : Context) (words : List Value) (cwd : Path) (capture : Bool)
    (seconds : Value) (m : Machine) : Except Fault Result × Machine :=
  match Value.texts? words with
  | some argv => m.run w ctx argv cwd capture seconds
  | none => m.runUnnamed w words cwd capture seconds

end Machine
end Bindery
