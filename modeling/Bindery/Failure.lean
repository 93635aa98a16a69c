import Bindery.Config.File
import Bindery.Shell.Basic

/-!
# Failures

What the caller is told about a fault is a `Failure`: a message, the exit code
of the program and a kind.  Faults of the configuration and failed commands have
codes of their own.  For a failed command the failure also has the command, its
directory and its exit code.
-/

namespace Bindery

/-! ## Exit codes -/

/-- The exit code of success. -/
def exitOk : Int := 0

/-- The exit code of a wrong call. -/
def exitUsage : Int := 2

/-- The exit code of a fault of the configuration. -/
def exitConfig : Int := 3

/-- The exit code of a failed command. -/
def exitCommand : Int := 4

/-- The exit code of any other fault. -/
def exitInternal : Int := 99

/-! ## Failures -/

/-- Where a failure comes from. -/
inductive Failure.Origin where
  /-- The program itself. -/
  | script
  /-- The configuration. -/
  | config
  /-- A command. -/
  | command
deriving DecidableEq, Repr

namespace Failure.Origin

/-- The exit code of a failure, if nothing else is said. -/
def code : Failure.Origin → Int
  | script => exitInternal
  | config => exitConfig
  | command => exitCommand

/-- The kind of a failure, if nothing else is said. -/
def kind : Failure.Origin → String
  | script => "generic_error"
  | config => "config_error"
  | command => "command_failed"

end Failure.Origin

/-- What the caller is told about a fault. -/
structure Failure where
  /-- Where it comes from. -/
  origin : Failure.Origin
  /-- The message. -/
  message : Text
  /-- The exit code. -/
  code : Int := origin.code
  /-- The kind. -/
  kind : Text := origin.kind
  /-- The command that failed. -/
  argv : List Text := []
  /-- The directory of the command. -/
  cwd : Option Text := none
  /-- The exit code of the command. -/
  commandCode : Int := 1
deriving DecidableEq, Repr

/-- The failure for a command that failed. -/
def CommandFailure.failure (f : CommandFailure) : Failure :=
  { origin := .command, message := f.message, argv := f.argv, cwd := some f.cwd.text,
    commandCode := f.code }

/-- The failure for a fault of the configuration. -/
def Config.Fault.failure (f : Config.Fault) : Failure := { origin := .config, message := f.message }

namespace Failure

/-- The failure as a JSON object, where `status` tells it from success. -/
def toJson (f : Failure) : Json :=
  .object [("schema_version", .int 1), ("tool", .text "butler-book"), ("status", .text "fail"),
    ("error", .object [("message", .text f.message), ("code", .int f.code),
      ("kind", .text f.kind)])]

end Failure

/-! ## Rows of failures -/

/-- The parts of a failure as they were given.  Nothing is known about the codes, the
kind and the command. -/
structure FailureRow where
  /-- Where it comes from. -/
  origin : Failure.Origin
  /-- The message. -/
  message : Text
  /-- The exit code. -/
  code : Json := .int origin.code
  /-- The kind. -/
  kind : Json := .text origin.kind
  /-- The command that failed. -/
  argv : List Json := []
  /-- The directory of the command. -/
  cwd : Option Text := none
  /-- The exit code of the command. -/
  commandCode : Json := .int 1
deriving Repr

/-- The parts of a failure. -/
def Failure.row (f : Failure) : FailureRow where
  origin := f.origin
  message := f.message
  code := .int f.code
  kind := .text f.kind
  argv := f.argv.map .text
  cwd := f.cwd
  commandCode := .int f.commandCode

namespace FailureRow

/-- The row for a command that ended with an exit code and a detail.  A detail that is
nothing is left out of the message. -/
def ofExit (argv : List Text) (cwd : Path) (code detail : Json) : FailureRow where
  origin := .command
  message := CommandFailure.exitMessage (Value.ofJson code).plain argv cwd
    (if detail.isVoid then [] else (Value.ofJson detail).plain)
  argv := argv.map .text
  cwd := some cwd.text
  commandCode := code

/-- A row with a part set by its place: the code, the kind, the command, its directory
and its exit code. -/
def setPart? (r : FailureRow) : Nat → Json → Option FailureRow
  | 0, v => some { r with code := v }
  | 1, v => some { r with kind := v }
  | 2, v => v.parts?.map fun argv => { r with argv }
  | 3, .null => some { r with cwd := none }
  | 3, v => some { r with cwd := some (Value.ofJson v).plain }
  | 4, v => some { r with commandCode := v }
  | _, _ => none

/-- A row with the parts from a place on set. -/
def setParts? (r : FailureRow) : Nat → List Json → Option FailureRow
  | _, [] => some r
  | place, v :: parts => do (← r.setPart? place v).setParts? (place + 1) parts

/-- The row of an origin with parts given in their order.  The message must be given,
and only the failure of a command has more than three parts. -/
def ofParts? (origin : Failure.Origin) : List Json → Option FailureRow
  | .text message :: parts =>
      if origin ≠ .command && 2 < parts.length then none
      else ({ origin, message } : FailureRow).setParts? 0 parts
  | _ => none

end FailureRow
end Bindery
