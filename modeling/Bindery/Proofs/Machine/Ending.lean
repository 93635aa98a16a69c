import Bindery.Proofs.Machine.Run
import Bindery.Proofs.Text.Blank

/-!
# How the child of a command ends

There are three ways for the child of a command to end.  It is not started, it is stopped by the
limit, or it ends by itself (`World.endingOf_cases`).  The result of the command tells which one
it was (`World.told_result`), and its exit code is 0 only for a child that succeeds: it is
started, keeps to the limit and ends with 0.
-/

namespace Bindery

/-! ## Exit codes of faults -/

namespace SystemFault

theorem exitCode_cases (fault : SystemFault) :
    fault.exitCode = exitNotStarted ∨ fault.exitCode = exitNotFound := by
  cases fault <;> first | exact .inl rfl | exact .inr rfl

theorem exitCode_ne_zero (fault : SystemFault) : fault.exitCode ≠ 0 := by
  cases fault <;> decide

theorem exitCode_ne_exitTimeout (fault : SystemFault) : fault.exitCode ≠ exitTimeout := by
  cases fault <;> decide

theorem exitCode_eq_exitNotFound_iff {fault : SystemFault} :
    fault.exitCode = exitNotFound ↔ fault = .missing := by
  cases fault <;> decide

theorem exitCode_eq_exitNotStarted_iff {fault : SystemFault} :
    fault.exitCode = exitNotStarted ↔ fault ≠ .missing := by
  cases fault <;> decide

end SystemFault

namespace World

variable (w : World) (before : List Command) (c : Command)

/-! ## What a child does -/

/-- The child of a command is started in its directory. -/
def Starts : Prop :=
  w.files.enter w.current c.cwd = .ok () ∧ (w.children before c).startFault = none

/-- The system takes the words and the directory of a command. -/
def Takes : Prop := Machine.refusal? (w.children before c) c = none

/-- The system can wait for the child of a command. -/
def Waits : Prop := Machine.waitFault? (w.children before c) c = none

instance : Decidable (w.Takes before c) := inferInstanceAs (Decidable (_ = none))

instance : Decidable (w.Waits before c) := inferInstanceAs (Decidable (_ = none))

/-- The system takes a command, and can wait for its child if the child is started. -/
def Handles : Prop := w.Takes before c ∧ (w.Starts before c → w.Waits before c)

/-- The child of a command does not end before the limit is reached. -/
def Exceeds : Prop := c.timeout.isSome = true ∧ (w.children before c).hangs = true

/-- The child of a command is started, keeps to the limit and ends with 0. -/
def Succeeds : Prop :=
  w.Starts before c ∧ ¬w.Exceeds before c ∧ (w.children before c).exit = 0

variable {w before c}

theorem endingOf_of_not_starts (h : ¬w.Starts before c) :
    ∃ fault thing, w.endingOf before c = .notStarted fault thing := by
  unfold endingOf Child.ending
  cases henter : w.files.enter w.current c.cwd with
  | error fault => exact ⟨_, _, rfl⟩
  | ok _ =>
      cases hstart : (w.children before c).startFault with
      | some fault => exact ⟨_, _, rfl⟩
      | none => exact absurd ⟨henter, hstart⟩ h

theorem endingOf_of_exceeds (hstarts : w.Starts before c) (h : w.Exceeds before c) :
    w.endingOf before c =
      .stopped (w.children before c).stdout (w.children before c).stderr := by
  simp only [endingOf, Child.ending, hstarts.1, hstarts.2, h.1, h.2, Bool.and_self, if_true]

theorem endingOf_of_not_exceeds (hstarts : w.Starts before c) (h : ¬w.Exceeds before c) :
    w.endingOf before c = .ended (w.children before c).exit (w.children before c).stdout
      (w.children before c).stderr := by
  have hkeeps : ((w.children before c).hangs && c.timeout.isSome) = false := by
    refine Bool.eq_false_iff.2 fun hboth => h ?_
    exact (Bool.and_eq_true_iff.1 hboth).symm
  simp only [endingOf, Child.ending, hstarts.1, hstarts.2, hkeeps, Bool.false_eq_true, if_false]

/-- The three ways for a child to end. -/
theorem endingOf_cases (w : World) (before : List Command) (c : Command) :
    (¬w.Starts before c ∧ ∃ fault thing, w.endingOf before c = .notStarted fault thing) ∨
    (w.Starts before c ∧ w.Exceeds before c ∧ w.endingOf before c =
      .stopped (w.children before c).stdout (w.children before c).stderr) ∨
    (w.Starts before c ∧ ¬w.Exceeds before c ∧ w.endingOf before c =
      .ended (w.children before c).exit (w.children before c).stdout
        (w.children before c).stderr) := by
  by_cases hstarts : w.Starts before c
  · by_cases hexceeds : w.Exceeds before c
    · exact .inr (.inl ⟨hstarts, hexceeds, endingOf_of_exceeds hstarts hexceeds⟩)
    · exact .inr (.inr ⟨hstarts, hexceeds, endingOf_of_not_exceeds hstarts hexceeds⟩)
  · exact .inl ⟨hstarts, endingOf_of_not_starts hstarts⟩

/-! ## What a result tells -/

/-- The words for a child that is stopped. -/
def timeoutMessage (seconds : Value) : Text := "command timed out after " ++ seconds.plain ++ "s"

/-- A result tells how the child of a command ended. -/
structure Told (w : World) (before : List Command) (c : Command) (seconds : Value) (r : Result) :
    Prop where
  /-- Only success has the exit code 0. -/
  zero : r.code = 0 ↔ w.Succeeds before c
  /-- A child that is stopped has an exit code of its own, and keeps what it printed. -/
  stopped : w.Starts before c → w.Exceeds before c → r.code = exitTimeout ∧
    r.stdout = .ofChars (captured c.capture (w.children before c).stdout) ∧
    ∃ front, r.stderr = front ++ timeoutMessage seconds
  /-- A child that is not started has one of two exit codes, and prints nothing. -/
  notStarted : ¬w.Starts before c →
    (r.code = exitNotStarted ∨ r.code = exitNotFound) ∧ r.stdout = []
  /-- Any other child has its exit code, and is not heard unless it is captured. -/
  ended : w.Starts before c → ¬w.Exceeds before c →
    r.code = (w.children before c).exit ∧ (c.capture = false → r.stdout = [] ∧ r.stderr = [])
  /-- Without a limit the exit code for that can only be the one of the child. -/
  unlimited : c.timeout = none → r.code = exitTimeout →
    w.Starts before c ∧ (w.children before c).exit = exitTimeout

/-- Trimming keeps the words for a child that is stopped. -/
theorem exists_trim_timeoutMessage (s : Text) (seconds : Value) : ∃ front : Text,
    Text.trim (s ++ "\ncommand timed out after " ++ seconds.plain ++ "s") =
      front ++ timeoutMessage seconds := by
  have hmessage : s ++ "\ncommand timed out after " ++ seconds.plain ++ "s" =
      (s ++ "\n") ++ CodePoint.char 'c' :: ("ommand timed out after " ++ seconds.plain) ++
        [CodePoint.char 's'] := by
    simp [Text.ofString, Text.ofChars]
  refine ⟨(s ++ "\n").dropWhile fun x => x.is Text.isBlank, ?_⟩
  rw [hmessage]
  refine (Text.trimBoth_append _ (by decide) (by decide) _ _).trans ?_
  simp [timeoutMessage, Text.ofString, Text.ofChars]

theorem told_of_not_starts (h : ¬w.Starts before c) (fault : SystemFault)
    (thing : Option String) (seconds : Value) (millis : Int) :
    w.Told before c seconds ((Ending.notStarted fault thing).result c seconds millis) where
  zero := iff_of_false fault.exitCode_ne_zero fun hsucceeds => h hsucceeds.1
  stopped hstarts := absurd hstarts h
  notStarted _ := ⟨fault.exitCode_cases, rfl⟩
  ended hstarts := absurd hstarts h
  unlimited _ hcode := absurd hcode fault.exitCode_ne_exitTimeout

theorem told_of_exceeds (hstarts : w.Starts before c) (h : w.Exceeds before c)
    (seconds : Value) (millis : Int) :
    w.Told before c seconds ((Ending.stopped (w.children before c).stdout
      (w.children before c).stderr).result c seconds millis) where
  zero := iff_of_false (by decide : exitTimeout ≠ 0) fun hsucceeds => hsucceeds.2.1 h
  stopped _ _ := ⟨rfl, rfl, exists_trim_timeoutMessage _ seconds⟩
  notStarted hnot := absurd hstarts hnot
  ended _ hnot := absurd h hnot
  unlimited hnone := by
    have hsome := h.1
    rw [hnone] at hsome
    cases hsome

theorem told_of_not_exceeds (hstarts : w.Starts before c) (h : ¬w.Exceeds before c)
    (seconds : Value) (millis : Int) :
    w.Told before c seconds ((Ending.ended (w.children before c).exit
      (w.children before c).stdout (w.children before c).stderr).result c seconds millis) where
  zero := ⟨fun hzero => ⟨hstarts, h, hzero⟩, fun hsucceeds => hsucceeds.2.2⟩
  stopped _ hexceeds := absurd hexceeds h
  notStarted hnot := absurd hstarts hnot
  ended _ _ := by
    refine ⟨rfl, fun hcapture => ?_⟩
    simp [Ending.result, captured, hcapture, Text.ofChars, Text.newlines]
  unlimited _ hcode := ⟨hstarts, hcode⟩

/-- What a command comes to tells how its child ended. -/
theorem told_result (w : World) (before : List Command) (c : Command) (seconds : Value)
    (millis : Int) : w.Told before c seconds ((w.endingOf before c).result c seconds millis) := by
  rcases endingOf_cases w before c with
    ⟨hstarts, fault, thing, hending⟩ | ⟨hstarts, hexceeds, hending⟩ | ⟨hstarts, hexceeds, hending⟩
  · rw [hending]
    exact told_of_not_starts hstarts fault thing seconds millis
  · rw [hending]
    exact told_of_exceeds hstarts hexceeds seconds millis
  · rw [hending]
    exact told_of_not_exceeds hstarts hexceeds seconds millis

end World
end Bindery
