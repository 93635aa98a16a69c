import Bindery.Proofs.Machine.Returns

/-!
# Why a child is not started

A child is not started if its directory cannot be entered, or else for a fault of its program
(`World.NotStarted`).  A command whose program does not exist has the exit code 127, and for
most other faults the code is 126.

There is one exception.  A directory that does not exist has the code 127 too, as it is the same
fault to the system.

A word or a directory that the system does not take at all is not reported with an exit code.
The command has no result then, and the fault is that of the first such thing.
`Machine.start_reported` says this for every command.
-/

namespace Bindery

namespace World

variable {w : World} {before : List Command} {c : Command} {fault : SystemFault}
  {thing : Option String}

/-- The child of a command is not started for a fault with a thing. -/
inductive NotStarted (w : World) (before : List Command) (c : Command) :
    SystemFault → Option String → Prop where
  /-- The directory cannot be entered. -/
  | directory {fault : FileSystem.WalkFault} : w.files.enter w.current c.cwd = .error fault →
      NotStarted w before c fault.toSystem (some c.cwd.literal)
  /-- The directory can be entered, but the program cannot be run. -/
  | program {fault : SystemFault} : w.files.enter w.current c.cwd = .ok () →
      (w.children before c).startFault = some fault →
      NotStarted w before c fault (programName? c.program)

/-- The directory can be entered, but the program of a command does not exist. -/
def ProgramMissing (w : World) (before : List Command) (c : Command) : Prop :=
  w.files.enter w.current c.cwd = .ok () ∧ (w.children before c).startFault = some .missing

/-- The directory of a command does not exist. -/
def DirectoryMissing (w : World) (c : Command) : Prop :=
  w.files.enter w.current c.cwd = .error .missing

theorem notStarted_iff : w.NotStarted before c fault thing ↔
    w.endingOf before c = .notStarted fault thing := by
  constructor
  · intro h
    cases h with
    | directory henter => simp only [endingOf, Child.ending, henter]
    | program henter hstart => simp only [endingOf, Child.ending, henter, hstart]
  · intro h
    have hnot : ¬w.Starts before c := by
      rcases w.endingOf_cases before c with ⟨hnot, -⟩ | ⟨-, -, hending⟩ | ⟨-, -, hending⟩
      · exact hnot
      · cases h.symm.trans hending
      · cases h.symm.trans hending
    cases henter : w.files.enter w.current c.cwd with
    | error walkFault =>
        simp only [endingOf, Child.ending, henter] at h
        cases h
        exact .directory henter
    | ok _ =>
        cases hstart : (w.children before c).startFault with
        | none => exact absurd ⟨henter, hstart⟩ hnot
        | some startFault =>
            simp only [endingOf, Child.ending, henter, hstart] at h
            cases h
            exact .program henter hstart

/-- The fault of a missing thing comes from the program or from the directory. -/
theorem NotStarted.eq_missing_iff (h : w.NotStarted before c fault thing) :
    fault = .missing ↔ w.ProgramMissing before c ∨ w.DirectoryMissing c := by
  cases h with
  | @directory walkFault henter =>
      simp only [ProgramMissing, DirectoryMissing, henter, reduceCtorEq, false_and, false_or,
        Except.error.injEq]
      cases walkFault <;> simp [FileSystem.WalkFault.toSystem]
  | program henter hstart => simp [ProgramMissing, DirectoryMissing, henter, hstart]

theorem not_programMissing_of_directoryMissing (h : w.DirectoryMissing c) :
    ¬w.ProgramMissing before c := by
  intro hprogram
  cases h.symm.trans hprogram.1

end World

namespace Machine

variable {w : World} {argv : List Text} {cwd : Path} {capture : Bool}
  {seconds : Value} {n : Number} {m : Machine} {r : Result}

/-! ## Reports -/

/-- A result reports why the child of a command was not started. -/
structure StartReported (w : World) (before : List Command) (c : Command) (r : Result) : Prop where
  /-- The exit code is 127 if the program or the directory is missing. -/
  missing : r.code = 127 ↔ w.ProgramMissing before c ∨ w.DirectoryMissing c
  /-- Else it is 126. -/
  other : r.code = 126 ↔ ¬w.ProgramMissing before c ∧ ¬w.DirectoryMissing c
  /-- So 127 stands for a missing program unless the directory is missing. -/
  program : (r.code = 127 ↔ w.ProgramMissing before c) ↔ ¬w.DirectoryMissing c
  /-- No other directory that cannot be entered has the code 127. -/
  directory : ∀ fault, w.files.enter w.current c.cwd = .error fault → fault ≠ .missing →
    r.code = 126
  /-- Nothing is printed. -/
  stdout : r.stdout = []
  /-- The report names the fault and the thing it is about. -/
  stderr : ∃ fault thing, w.NotStarted before c fault thing ∧ r.stderr =
    "unable to start " ++ c.program.plain ++ (": " ++ fault.message thing : String)

theorem startReported_result {before : List Command} {c : Command} {fault : SystemFault}
    {thing : Option String} (h : w.NotStarted before c fault thing) (seconds : Value)
    (millis : Int) :
    StartReported w before c ((Ending.notStarted fault thing).result c seconds millis) := by
  have hmissing := h.eq_missing_iff
  have hfound : fault.exitCode = exitNotFound ↔
      w.ProgramMissing before c ∨ w.DirectoryMissing c :=
    SystemFault.exitCode_eq_exitNotFound_iff.trans hmissing
  have hother : fault.exitCode = exitNotStarted ↔ fault ≠ .missing :=
    SystemFault.exitCode_eq_exitNotStarted_iff
  constructor
  case missing => exact hfound
  case other => exact hother.trans ((not_congr hmissing).trans not_or)
  case program =>
    change (fault.exitCode = exitNotFound ↔ _) ↔ _
    rw [hfound]
    constructor
    · intro hiff hdirectory
      exact World.not_programMissing_of_directoryMissing hdirectory (hiff.1 (.inr hdirectory))
    · intro hdirectory
      simp [hdirectory]
  case directory =>
    intro walkFault henter hne
    refine hother.2 fun heq => ?_
    rcases hmissing.1 heq with hprogram | hdirectory
    · cases henter.symm.trans hprogram.1
    · cases henter.symm.trans hdirectory
      exact hne rfl
  case stdout => rfl
  case stderr => exact ⟨fault, thing, h, rfl⟩

/-- A command that failed is logged as an error, which is always shown. -/
theorem isShown_runEvent_of_ne_zero (ctx : Context) (argv : List Text) (cwd : Path)
    (h : r.code ≠ 0) : (runEvent argv cwd r).isShown ctx = true := by
  have hdebug : (("error" : Text) == "debug") = false := by decide
  have hinfo : (("error" : Text) == "info") = false := by decide
  simp only [runEvent, h, if_false, Event.isShown, hdebug, hinfo, Bool.false_and, Bool.or_self,
    Bool.and_false, Bool.not_false, Bool.and_self]

/-- A world with one file and with processes that all start. -/
def plainWorld : World where
  files := { mount := [], entries := [(["notes"], .file [])] }
  current := []
  children := fun _ _ => { isProcess := true }

end Machine
end Bindery
