import Bindery.Machine.Basic

/-!
# What a command does to the machine

`Machine.execute_cases` and `Machine.run_cases` say all that running a command
may do.  Either it has a result, and then the machine has one more command and the
result is the one its child comes to.  Or it has none, and then the machine has one
more command or not.

The output of a result does not depend on how long the command took.
-/

namespace Bindery

/-! ## Results -/

/-- What a command prints when it ends, if it is captured. -/
def Ending.printed (e : Ending) (c : Command) : Text := (e.result c .null 0).stdout

/-- The exit code that a command ends with. -/
def Ending.code (e : Ending) (c : Command) : Int := (e.result c .null 0).code

theorem Ending.result_stdout (e : Ending) (c : Command) (seconds : Value) (millis : Int) :
    (e.result c seconds millis).stdout = e.printed c := by
  cases e <;> rfl

theorem Ending.result_millis (e : Ending) (c : Command) (seconds : Value) (millis : Int) :
    (e.result c seconds millis).millis = millis := by
  cases e <;> rfl

/-- How a command ends, given the commands before it. -/
def World.endingOf (w : World) (before : List Command) (c : Command) : Ending :=
  (w.children before c).ending w c

namespace Machine

/-- The limit of a command that may take so many seconds, if there is one. -/
def limitOf (seconds : Value) : Option Value := (limit? seconds).toOption.join

/-- The command of texts, as it is handed to the system. -/
def command (argv : List Text) (cwd : Path) (capture : Bool) (seconds : Value) : Command :=
  ⟨argv.map .text, cwd, capture, limitOf seconds⟩

/-! ## The parts of a machine -/

@[simp] theorem tick_commands (m : Machine) : m.tick.commands = m.commands := by
  unfold tick
  split <;> rfl

@[simp] theorem tick_events (m : Machine) : m.tick.events = m.events := by
  unfold tick
  split <;> rfl

@[simp] theorem logged_commands (m : Machine) (e : Event) :
    (m.logged e).commands = m.commands := rfl

/-! ## Running -/

/-- What running a command may do. -/
theorem execute_cases (w : World) (argv : List Text) (cwd : Path) (capture : Bool)
    (seconds : Value) (m : Machine) :
    (∃ millis m',
      m.execute w (argv.map .text) cwd capture seconds =
        (.ok ((w.endingOf m.commands (command argv cwd capture seconds)).result
          (command argv cwd capture seconds) seconds millis), m') ∧
      m'.commands = m.commands ++ [command argv cwd capture seconds] ∧ m'.events = m.events) ∨
    (∃ fault m',
      m.execute w (argv.map .text) cwd capture seconds = (.error fault, m') ∧
      (m'.commands = m.commands ∨
        m'.commands = m.commands ++ [command argv cwd capture seconds]) ∧
      m'.events = m.events) := by
  unfold execute
  cases hl : limit? seconds with
  | error fault => exact .inr ⟨fault, m.tick, rfl, .inl (by simp), by simp⟩
  | ok limit =>
      have hc : command argv cwd capture seconds = ⟨argv.map .text, cwd, capture, limit⟩ := by
        simp [command, limitOf, hl, Except.toOption]
      simp only [hc, World.endingOf, tick_commands]
      split
      · next fault _ => exact .inr ⟨fault, _, rfl, .inr (by simp), by simp⟩
      · split
        · next fault _ => exact .inr ⟨.duration fault, _, rfl, .inr (by simp), by simp⟩
        · next millis _ => exact .inl ⟨millis, _, rfl, by simp, by simp⟩

/-- Reporting a result changes nothing but the log, and gives the result unless its
time cannot be written. -/
theorem report_cases (ctx : Context) (argv : List Text) (cwd : Path) (capture : Bool)
    (r : Result) (m : Machine) :
    (∃ m', m.report ctx argv cwd capture r = (.ok r, m') ∧ m'.commands = m.commands) ∨
    m.report ctx argv cwd capture r = (.error .unwritable, m) := by
  simp only [report]
  split
  · exact .inr rfl
  · refine .inl ⟨_, rfl, ?_⟩
    split <;> simp

/-- What running a command and logging it may do. -/
theorem run_cases (w : World) (ctx : Context) (argv : List Text) (cwd : Path) (capture : Bool)
    (seconds : Value) (m : Machine) :
    (∃ millis m',
      m.run w ctx argv cwd capture seconds =
        (.ok ((w.endingOf m.commands (command argv cwd capture seconds)).result
          (command argv cwd capture seconds) seconds millis), m') ∧
      m'.commands = m.commands ++ [command argv cwd capture seconds]) ∨
    (∃ fault m',
      m.run w ctx argv cwd capture seconds = (.error fault, m') ∧
      (m'.commands = m.commands ∨
        m'.commands = m.commands ++ [command argv cwd capture seconds])) := by
  rcases execute_cases w argv cwd capture seconds m with
    ⟨millis, m₁, hrun, hcommands, _⟩ | ⟨fault, m₁, hrun, hcommands, _⟩
  · rw [run, hrun]
    rcases report_cases ctx argv cwd capture
      ((w.endingOf m.commands (command argv cwd capture seconds)).result
        (command argv cwd capture seconds) seconds millis) m₁ with ⟨m₂, hreport, hsame⟩ | hreport
    · exact .inl ⟨millis, m₂, hreport, by rw [hsame, hcommands]⟩
    · exact .inr ⟨.unwritable, m₁, hreport, .inr hcommands⟩
  · rw [run, hrun]
    exact .inr ⟨fault, m₁, rfl, hcommands⟩

end Machine
end Bindery
