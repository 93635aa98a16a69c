import Bindery.Config.Settings
import Bindery.FileSystem.Resolve
import Bindery.Machine.Basic

/-!
# The shell

A `Shell` runs commands one after the other, each in the directory it is in, and
stops at the first one that fails.  Directories are entered and left as blocks
that nest, and a block is left also when a command in it fails.  A dry run only
logs the commands, and what it would capture is a fixed text.  The words of a
command are values, but only commands whose words are all texts can be logged, and
any other one is a fault.

A `Session` is what changes: the directories, the commands that ended, and the
machine.  An `Act` is what a shell does.  It keeps the session also when it
fails.
-/

namespace Bindery

/-! ## Sessions -/

/-- A command that ended. -/
structure Executed where
  /-- The program and its arguments. -/
  argv : List Text
  /-- The directory it ran in. -/
  cwd : Path
  /-- Its exit code. -/
  code : Int
  /-- The milliseconds it took. -/
  millis : Int
deriving DecidableEq, Repr

/-- What changes while a shell works. -/
structure Session where
  /-- The directory the shell is in. -/
  cwd : Path
  /-- The directories to go back to, the next one first. -/
  outer : List Path := []
  /-- The commands that ended, first one first. -/
  history : List Executed := []
  /-- What happened on the machine. -/
  machine : Machine := {}
deriving Repr

namespace Session

/-- The session in another directory. -/
def enter (s : Session) (target : Path) : Session :=
  { s with cwd := target, outer := s.cwd :: s.outer }

/-- The session back in the directory it came from. -/
def leave (s : Session) : Session :=
  match s.outer with
  | [] => s
  | previous :: outer => { s with cwd := previous, outer }

/-- The session with an event logged. -/
def logged (s : Session) (e : Event) : Session := { s with machine := s.machine.logged e }

end Session

/-! ## Faults -/

/-- Why a command counts as failed. -/
inductive FailureReason where
  /-- Its exit code is not 0.  The detail is what it wrote about that. -/
  | exited (detail : Text)
  /-- It printed nothing where a directory was asked for. -/
  | noOutput
deriving DecidableEq, Repr

/-- A command that failed. -/
structure CommandFailure where
  /-- The program and its arguments. -/
  argv : List Text
  /-- The directory it ran in. -/
  cwd : Path
  /-- Its exit code. -/
  code : Int
  /-- Why it counts as failed. -/
  reason : FailureReason
deriving DecidableEq, Repr

namespace CommandFailure

/-- The place where a command failed. -/
def place (cwd : Path) : Text := " (cwd=" ++ cwd.text ++ ")"

/-- The report of an exit code, which is given as it is shown. -/
def exitMessage (code : Text) (argv : List Text) (cwd : Path) (detail : Text) : Text :=
  let detail : Text := if detail.isEmpty then [] else "\n" ++ detail
  "command failed with exit code " ++ code ++ ": " ++ Machine.commandLine argv ++ place cwd ++
    detail

/-- The report of a command that failed. -/
def message (f : CommandFailure) : Text :=
  match f.reason with
  | .exited detail => exitMessage (toString f.code) f.argv f.cwd detail
  | .noOutput => Machine.commandLine f.argv ++ " printed no prefix" ++ place f.cwd

end CommandFailure

namespace Shell

/-- Why a shell stops. -/
inductive Fault where
  /-- A command failed. -/
  | commandFailed (failure : CommandFailure)
  /-- A directory cannot be resolved. -/
  | unresolved (fault : FileSystem.ResolveFault)
  /-- A command has no result. -/
  | noResult (fault : Machine.Fault)
  /-- A setting cannot be used. -/
  | unusable (fault : Settings.Fault)
deriving DecidableEq, Repr

/-- The words for a fault. -/
def Fault.message : Fault → Text
  | .commandFailed failure => failure.message
  | .unresolved fault => fault.message
  | .noResult fault => fault.message
  | .unusable fault => fault.message

end Shell

/-! ## Shells -/

/-- What a shell does: a result or a fault, and the session it leaves. -/
abbrev Act (α : Type) := ExceptT Shell.Fault (StateM Session) α

/-- A shell. -/
structure Shell where
  /-- What the commands meet. -/
  world : World
  /-- The context of the run. -/
  context : Context
  /-- The seconds that a command may take, where 0 means any time. -/
  seconds : Value := .number (.int 0)

namespace Shell

/-- A session that starts in a directory, the root of the repository if none is
given. -/
def openAt (sh : Shell) (start : Option Path) (machine : Machine) :
    Except FileSystem.ResolveFault Session := do
  let cwd ← sh.world.files.resolve sh.world.current (start.getD sh.context.root)
  return { cwd, machine }

/-! ## Commands -/

/-- What a dry run captures. -/
def dryCapture : String := "/usr/local"

/-- What a command comes to in a dry run. -/
def dryResult (capture : Bool) : Result := ⟨0, if capture then dryCapture else [], [], 0⟩

/-- The event for a command of a dry run. -/
def dryEvent (argv : List Text) (cwd : Path) : Event :=
  ⟨"info", "shell", "dry-run",
    [("command", .text (Machine.commandLine argv)), ("cwd", .text cwd.text)]⟩

/-- What a command comes to, before it is known to have failed. -/
def attempt (sh : Shell) (argv : List Text) (capture : Bool) : Act Result := ExceptT.mk fun s =>
  if sh.context.dryRun then (.ok (dryResult capture), s.logged (dryEvent argv s.cwd))
  else
    match s.machine.run sh.world sh.context argv s.cwd capture sh.seconds with
    | (.ok r, machine) => (.ok r, { s with machine })
    | (.error fault, machine) => (.error (.noResult fault), { s with machine })

/-- The session with a command that ended in it. -/
def recorded (argv : List Text) (r : Result) (s : Session) : Session :=
  { s with history := s.history ++ [⟨argv, s.cwd, r.code, r.millis⟩] }

/-- Runs a command.  An exit code that is not 0 is a fault. -/
def execute (sh : Shell) (argv : List Text) (capture : Bool) : Act Result := do
  let r ← sh.attempt argv capture
  modify (recorded argv r)
  if r.code = 0 then return r
  else throw (.commandFailed ⟨argv, (← get).cwd, r.code, .exited (Text.trim r.stderr)⟩)

/-- Runs a command of which a word is no text.  It cannot be logged, so a dry run does
not even try it. -/
def executeUnnamed (sh : Shell) (words : List Value) (capture : Bool) : Act Result :=
  ExceptT.mk fun s =>
    if sh.context.dryRun then (.error (.noResult .wordKind), s)
    else
      let (r, machine) := s.machine.runUnnamed sh.world words s.cwd capture sh.seconds
      (r.mapError .noResult, { s with machine })

/-- Runs a command of any words. -/
def executeWords (sh : Shell) (words : List Value) (capture : Bool) : Act Result :=
  match Value.texts? words with
  | some argv => sh.execute argv capture
  | none => sh.executeUnnamed words capture

/-- Runs a command whose output goes to the terminal. -/
def run (sh : Shell) (words : List Value) : Act Result := sh.executeWords words false

/-- Runs a command for its output, without the white space around it. -/
def capture (sh : Shell) (words : List Value) : Act Text := do
  return Text.trim (← sh.executeWords words true).stdout

/-! ## Directories -/

/-- The event for a directory that is entered. -/
def enterEvent (target : Path) : Event := ⟨"debug", "shell", "cd", [("path", .text target.text)]⟩

/-- The directory that a path leads to from the one the shell is in. -/
def target (sh : Shell) (path : Path) : Act Path := ExceptT.mk fun s =>
  match sh.world.files.resolve sh.world.current (s.cwd / path) with
  | .ok target => (.ok target, s.logged (enterEvent target))
  | .error fault => (.error (.unresolved fault), s)

/-- Does something in a directory and goes back, also if it fails. -/
def within {α : Type} (target : Path) (body : Act α) : Act α := ExceptT.mk fun s =>
  let (r, s) := body.run (s.enter target)
  (r, s.leave)

/-- Does something in the directory that a path leads to. -/
def inside {α : Type} (sh : Shell) (path : Path) (body : Path → Act α) : Act α := do
  let target ← sh.target path
  within target (body target)

end Shell
end Bindery
