import Bindery.Shell.Basic

/-!
# Programs

A `Step` is a command, a block in a directory, or a block whose faults are
caught.  `Step.play` plays a step and gives, besides the outcome and the
session, a row for each thing that happens.  A fault leaves a row for every step
it passes, the innermost one first.
-/

namespace Bindery

/-- A step of a program. -/
inductive Step where
  /-- Runs a command. -/
  | run (words : List Value)
  /-- Runs a command for its output. -/
  | capture (words : List Value)
  /-- Does steps in a directory. -/
  | cd (path : Path) (body : List Step)
  /-- Does steps and goes on if one fails. -/
  | attempt (body : List Step)
deriving Inhabited

/-- What happens while a program is played. -/
inductive Happening where
  /-- A command ended. -/
  | ran (r : Result)
  /-- A command ended with output. -/
  | captured (output : Text)
  /-- A directory was entered. -/
  | entered (target : Path)
  /-- A directory was left. -/
  | left
  /-- A block ended whose faults are caught, with the fault if there was one. -/
  | attempted (caught : Option Shell.Fault)
  /-- A command failed. -/
  | runFailed (fault : Shell.Fault)
  /-- A command for output failed. -/
  | captureFailed (fault : Shell.Fault)
  /-- A block in a directory failed. -/
  | cdFailed (fault : Shell.Fault)
deriving Repr

/-- What happens, and the directory the shell is in then. -/
structure Row where
  /-- The directory. -/
  cwd : Path
  /-- What happens. -/
  happening : Happening
deriving Repr

/-- What steps come to. -/
structure Played where
  /-- Whether they ended or stopped at a fault. -/
  outcome : Except Shell.Fault Unit
  /-- The session they leave. -/
  session : Session
  /-- What happened. -/
  rows : List Row

/-- The fault of an outcome, if there is one. -/
def faultOf {α : Type} : Except Shell.Fault α → Option Shell.Fault
  | .ok _ => none
  | .error fault => some fault

/-- The outcome of something done by a shell, with its row. -/
def Played.ofAct {α : Type} (act : Act α) (done : α → Happening) (failed : Shell.Fault → Happening)
    (s : Session) : Played :=
  match act.run s with
  | (.ok a, s) => ⟨.ok (), s, [⟨s.cwd, done a⟩]⟩
  | (.error fault, s) => ⟨.error fault, s, [⟨s.cwd, failed fault⟩]⟩

/-- A block that was played in a directory, with the directory left. -/
def Played.leave (target : Path) (p : Played) : Played :=
  let s := p.session.leave
  let last : Happening :=
    match p.outcome with
    | .ok () => .left
    | .error fault => .cdFailed fault
  ⟨p.outcome, s, ⟨target, .entered target⟩ :: p.rows ++ [⟨s.cwd, last⟩]⟩

mutual

/-- Plays a step. -/
def Step.play (sh : Shell) : Step → Session → Played
  | .run words, s => .ofAct (sh.run words) .ran .runFailed s
  | .capture words, s => .ofAct (sh.capture words) .captured .captureFailed s
  | .cd path body, s =>
      match (sh.target path).run s with
      | (.ok target, s) => (playAll sh body (s.enter target)).leave target
      | (.error fault, s) => ⟨.error fault, s, [⟨s.cwd, .cdFailed fault⟩]⟩
  | .attempt body, s =>
      let p := playAll sh body s
      ⟨.ok (), p.session, p.rows ++ [⟨p.session.cwd, .attempted (faultOf p.outcome)⟩]⟩

/-- Plays steps one after the other, up to the first fault. -/
def Step.playAll (sh : Shell) : List Step → Session → Played
  | [], s => ⟨.ok (), s, []⟩
  | step :: steps, s =>
      let first := step.play sh s
      match first.outcome with
      | .error _ => first
      | .ok () =>
          let rest := playAll sh steps first.session
          { rest with rows := first.rows ++ rest.rows }

end

end Bindery
