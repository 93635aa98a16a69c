import Bindery.FileSystem.Basic
import Bindery.Text.Blank
import Bindery.Text.Stream
import Bindery.Value.Text

/-!
# Child processes

A command is run by a child in a directory.  Its words are values, nearly always
texts.  It always has a `Result`, also if the child cannot be started or takes too
long.  Those have exit codes of their
own, in the way of a shell: 127 if something that is needed to start it does not
exist, 126 for any other fault of starting it, and 124 if it takes too long.

A `Child` is described by what it does: whether it starts, whether it hangs, its
exit code and its output.  `Children` says what the next child does, given the
commands so far.  A child that hangs is stopped by the time limit.  Without a
limit no child hangs.  The limit is a value that counts as a number, and it is
shown as it was given.

A child is a process of the system, or something that stands in for one.  The
system looks at the words of a command before it starts a process, and at the
limit before it waits for it.  What stands in for a process takes any words and
any limit.

Captured output is read as UTF-8 with U+FFFD for what is none.  Its line ends
become newlines, but not if the child was stopped.
-/

namespace Bindery

/-! ## Commands and children -/

/-- A command to run. -/
structure Command where
  /-- The program and its arguments. -/
  argv : List Value
  /-- The directory to run in. -/
  cwd : Path
  /-- The output is captured. -/
  capture : Bool
  /-- The seconds it may take, if there is a limit. -/
  timeout : Option Value
deriving Repr

/-- The program of a command. -/
def Command.program (c : Command) : Value := c.argv.headD (.text [])

/-- What a child does. -/
structure Child where
  /-- It is a process of the system, and not something that stands in for one. -/
  isProcess : Bool := false
  /-- Why it cannot be started, if it cannot. -/
  startFault : Option SystemFault := none
  /-- It does not end by itself. -/
  hangs : Bool := false
  /-- Its exit code, negative if a signal ends it. -/
  exit : Int := 0
  /-- What it writes to its standard output. -/
  stdout : List UInt8 := []
  /-- What it writes to its standard error. -/
  stderr : List UInt8 := []
deriving DecidableEq, Repr, Inhabited

/-- What the next child does, given the commands before it and its own. -/
abbrev Children := List Command → Command → Child

/-- What does not change while commands run. -/
structure World where
  /-- The files. -/
  files : FileSystem
  /-- The directory of the process. -/
  current : List Text
  /-- What the children do. -/
  children : Children

/-- What a command comes to. -/
structure Result where
  /-- The exit code. -/
  code : Int
  /-- The standard output, if it was captured. -/
  stdout : Text
  /-- The standard error, if it was captured, or why there is none. -/
  stderr : Text
  /-- The milliseconds it took. -/
  millis : Int
deriving DecidableEq, Repr

/-- All output, without the white space around it. -/
def Result.output (r : Result) : Text := Text.trim (r.stdout ++ r.stderr)

/-! ## How a child ends -/

/-- The exit code of a command that takes too long. -/
def exitTimeout : Int := 124

/-- The exit code of a command that cannot be started. -/
def exitNotStarted : Int := 126

/-- The exit code of a command that does not exist. -/
def exitNotFound : Int := 127

/-- How a child ends. -/
inductive Ending where
  /-- It was not started. -/
  | notStarted (fault : SystemFault) (thing : Option String)
  /-- It was stopped by the time limit. -/
  | stopped (stdout stderr : List UInt8)
  /-- It ended by itself. -/
  | ended (code : Int) (stdout stderr : List UInt8)
deriving DecidableEq, Repr

/-- The name of a program in a report.  Null is no name. -/
def programName? : Value → Option String
  | .null => none
  | program => some program.literal

/-- How a command ends if its child does what is described. -/
def Child.ending (child : Child) (w : World) (c : Command) : Ending :=
  match w.files.enter w.current c.cwd with
  | .error fault => .notStarted fault.toSystem (some c.cwd.literal)
  | .ok () =>
      match child.startFault with
      | some fault => .notStarted fault (programName? c.program)
      | none =>
          if child.hangs && c.timeout.isSome then .stopped child.stdout child.stderr
          else .ended child.exit child.stdout child.stderr

/-- The characters of bytes, if they are captured. -/
def captured (capture : Bool) (bytes : List UInt8) : List Char :=
  if capture then Text.Utf8.decodeLossy bytes else []

/-- The exit code of a fault of starting. -/
def SystemFault.exitCode : SystemFault → Int
  | missing => exitNotFound
  | _ => exitNotStarted

/-- What a command that may take so many seconds comes to when it ends. -/
def Ending.result (e : Ending) (c : Command) (seconds : Value) (millis : Int) : Result :=
  match e with
  | .ended code stdout stderr =>
      let text (bytes : List UInt8) := Text.ofChars (Text.newlines (captured c.capture bytes))
      ⟨code, text stdout, text stderr, millis⟩
  | .stopped stdout stderr =>
      let text (bytes : List UInt8) := Text.ofChars (captured c.capture bytes)
      ⟨exitTimeout, text stdout,
        Text.trim (text stderr ++ "\ncommand timed out after " ++ seconds.plain ++ "s"), millis⟩
  | .notStarted fault thing =>
      ⟨fault.exitCode, [],
        "unable to start " ++ c.program.plain ++ (": " ++ fault.message thing : String), millis⟩

end Bindery
