import Bindery.Proofs.Machine.Answer
import Bindery.Proofs.Shell.Act

/-!
# Courses of a plan

A plan is a list of commands in their order.  Where a directory cannot be resolved, or a
setting cannot be used, it has the fault in place of the command.  `Course` says what may
come of a plan: the commands that ended, the commands that were handed to the system, and
the outcome.  A course goes through the plan up to the first command that fails, and its
outcome is a result only at the end of the plan (`Course.of_ok`, `Course.exists_ok`).

Only a live course has commands that fail.  A dry one ends early only where the plan has a
fault (`Course.exists_ok_of_dry`).

`ComesTo` says how far a history goes through a plan.  A course ends with a fault that no
failed command has exactly where what comes next is that fault, or a command without a
result (`Course.comesTo_of_error`, `Course.eq_error_of_comesTo`, `Course.lost_of_comesTo`).
-/

namespace Bindery

/-! ## Plans -/

/-- A command that is to be run. -/
structure Planned where
  /-- The program and its arguments. -/
  argv : List Text
  /-- The directory to run in. -/
  cwd : Path
  /-- What it prints, if its output is captured. -/
  output : Option Text := none
deriving DecidableEq

/-- A planned command without its output. -/
def Planned.key (p : Planned) : List Text × Path := (p.argv, p.cwd)

/-- A command that ended without what came of it. -/
def Executed.key (e : Executed) : List Text × Path := (e.argv, e.cwd)

/-- Commands in their order, or the faults that stand in their places. -/
abbrev Plan := List (Except Shell.Fault Planned)

/-- The commands of a plan without their output. -/
def Plan.keys (plan : Plan) : List (Except Shell.Fault (List Text × Path)) :=
  plan.map fun p => p.map Planned.key

namespace Shell

/-- A planned command as it is handed to the system. -/
def command (sh : Shell) (p : Planned) : Command :=
  Machine.command p.argv p.cwd p.output.isSome sh.seconds

/-- What is handed to the system for a planned command. -/
def started (sh : Shell) (p : Planned) : List Command :=
  if sh.context.dryRun then [] else [sh.command p]

/-- What is handed to the system for a plan. -/
def startedBy (sh : Shell) (plan : Plan) : List Command :=
  plan.flatMap fun p => (p.toOption.map sh.started).getD []

/-- What a command prints without the white space around it, given the commands before it. -/
def answer (sh : Shell) (before : List Command) (argv : List Text) (cwd : Path) : Text :=
  let c := Machine.command argv cwd true sh.seconds
  Text.trim (if sh.context.dryRun then dryCapture else (sh.world.endingOf before c).printed c)

/-- A planned command has no result for a fault, on a machine with these readings to come and
these commands before it. -/
def Loses (sh : Shell) (readings : List Number) (before : List Command) (p : Planned)
    (fault : Machine.Fault) : Prop :=
  ∃ m : Machine, m.commands = before ∧ m.readings ⊆ readings ∧
    (m.run sh.world sh.context p.argv p.cwd p.output.isSome sh.seconds).1 = .error fault

/-- What may come of a plan behind the commands that were handed to the system before. -/
inductive Course (sh : Shell) (readings : List Number) {α : Type} :
    List Command → Plan → List Executed → List Command → Except Shell.Fault α → Prop where
  /-- Nothing is left to run. -/
  | done {before : List Command} (a : α) : Course sh readings before [] [] [] (.ok a)
  /-- A command ends well and answers what it is asked, and the rest of the plan follows. -/
  | ran {before commands : List Command} {p : Planned} {plan : Plan} {ran : List Executed}
      {outcome : Except Shell.Fault α} (answered : p.output ≠ some []) (millis : Int)
      (rest : Course sh readings (before ++ sh.started p) plan ran commands outcome) :
      Course sh readings before (.ok p :: plan) (⟨p.argv, p.cwd, 0, millis⟩ :: ran)
        (sh.started p ++ commands) outcome
  /-- A command fails. -/
  | failed {before : List Command} {p : Planned} {plan : Plan} (live : sh.context.dryRun = false)
      {code : Int} (nonzero : code ≠ 0) (millis : Int) (detail : Text) :
      Course sh readings before (.ok p :: plan) [⟨p.argv, p.cwd, code, millis⟩] (sh.started p)
        (.error (.commandFailed ⟨p.argv, p.cwd, code, .exited detail⟩))
  /-- A command ends well but prints nothing, and the rest of the plan needs its output. -/
  | unanswered {before : List Command} {p : Planned} {plan : Plan}
      (live : sh.context.dryRun = false) (blank : p.output = some [])
      (next : Except Shell.Fault Planned) (millis : Int) :
      Course sh readings before (.ok p :: next :: plan) [⟨p.argv, p.cwd, 0, millis⟩] (sh.started p)
        (.error (.commandFailed ⟨p.argv, p.cwd, 0, .noOutput⟩))
  /-- A command has no result. -/
  | lost {before commands : List Command} {p : Planned} {plan : Plan}
      (live : sh.context.dryRun = false) (tried : commands = [] ∨ commands = sh.started p)
      {fault : Machine.Fault} (loses : sh.Loses readings before p fault) :
      Course sh readings before (.ok p :: plan) [] commands (.error (.noResult fault))
  /-- The next command cannot be tried. -/
  | stuck {before : List Command} {fault : Shell.Fault} {plan : Plan}
      (other : ∀ f, fault ≠ .commandFailed f) :
      Course sh readings before (.error fault :: plan) [] [] (.error fault)

theorem Loses.mono {sh : Shell} {readings all : List Number} {before : List Command} {p : Planned}
    {fault : Machine.Fault} (h : sh.Loses readings before p fault) (hall : readings ⊆ all) :
    sh.Loses all before p fault := by
  obtain ⟨m, hcommands, hreadings, hrun⟩ := h
  exact ⟨m, hcommands, List.Subset.trans hreadings hall, hrun⟩

namespace Course

variable {sh : Shell} {α β : Type} {readings : List Number} {plan rest : Plan}
  {ran later : List Executed} {before commands more : List Command} {a : α}

theorem mono {all : List Number} {outcome : Except Shell.Fault α}
    (h : Course sh readings before plan ran commands outcome) (hall : readings ⊆ all) :
    Course sh all before plan ran commands outcome := by
  induction h with
  | done a => exact .done a
  | ran answered millis _ ih => exact .ran answered millis ih
  | failed live nonzero millis detail => exact .failed live nonzero millis detail
  | unanswered live blank next millis => exact .unanswered live blank next millis
  | lost live tried loses => exact .lost live tried (loses.mono hall)
  | stuck other => exact .stuck other

/-! ## One course behind another -/

theorem append {outcome : Except Shell.Fault β}
    (h : Course sh readings before plan ran commands (.ok a))
    (h' : Course sh readings (before ++ commands) rest later more outcome) :
    Course sh readings before (plan ++ rest) (ran ++ later) (commands ++ more) outcome := by
  generalize ho : Except.ok a = first at h
  induction h with
  | done _ => rwa [List.append_nil] at h'
  | ran answered millis _ ih =>
      rw [List.append_assoc]
      rw [← List.append_assoc] at h'
      exact .ran answered millis (ih h' ho)
  | failed => cases ho
  | unanswered => cases ho
  | lost => cases ho
  | stuck => cases ho

theorem append_of_error {fault : Shell.Fault}
    (h : Course sh readings before plan ran commands (.error fault : Except Shell.Fault α)) :
    Course sh readings before (plan ++ rest) ran commands
      (.error fault : Except Shell.Fault β) := by
  generalize ho : Except.error fault = outcome at h
  induction h with
  | done a => cases ho
  | ran answered millis _ ih => exact .ran answered millis (ih ho)
  | failed live nonzero millis detail =>
      cases ho
      exact .failed live nonzero millis detail
  | unanswered live blank next millis =>
      cases ho
      exact .unanswered live blank next millis
  | lost live tried loses =>
      cases ho
      exact .lost live tried loses
  | stuck other =>
      cases ho
      exact .stuck other

/-! ## What a course says about its plan -/

/-- A course with a result goes through the whole plan, and nothing in it fails. -/
theorem of_ok (h : Course sh readings before plan ran commands (.ok a)) :
    (∃ ps : List Planned, plan = ps.map .ok) ∧ ran.map (.ok ·.key) = plan.keys ∧
      (∀ e ∈ ran, e.code = 0) ∧ commands = sh.startedBy plan := by
  generalize ho : Except.ok a = outcome at h
  induction h with
  | done _ => exact ⟨⟨[], rfl⟩, rfl, by simp, rfl⟩
  | @ran _ _ p _ _ _ _ millis _ ih =>
      obtain ⟨⟨ps, hplan⟩, hkeys, hcodes, hcommands⟩ := ih ho
      refine ⟨⟨p :: ps, by rw [hplan]; rfl⟩, ?_, ?_, ?_⟩
      · exact congrArg (List.cons (Except.ok p.key)) hkeys
      · simpa using hcodes
      · rw [hcommands]
        rfl
  | failed => cases ho
  | unanswered => cases ho
  | lost => cases ho
  | stuck => cases ho

/-- What ended is a front of the plan. -/
theorem prefix_keys {outcome : Except Shell.Fault α}
    (h : Course sh readings before plan ran commands outcome) :
    ran.map (.ok ·.key) <+: plan.keys := by
  induction h with
  | done _ => exact List.prefix_rfl
  | ran _ millis _ ih => exact (List.prefix_cons_inj _).2 ih
  | failed => exact ⟨_, rfl⟩
  | unanswered => exact ⟨_, rfl⟩
  | lost => exact List.nil_prefix
  | stuck => exact List.nil_prefix

/-- Whatever ended before the last command ended well. -/
theorem code_of_mem_dropLast {outcome : Except Shell.Fault α}
    (h : Course sh readings before plan ran commands outcome) : ∀ e ∈ ran.dropLast, e.code = 0 := by
  induction h with
  | done _ => simp
  | ran _ millis rest ih =>
      intro e he
      cases rest with
      | done _ => simp at he
      | lost => simp at he
      | stuck => simp at he
      | ran _ millis' _ =>
          rcases List.mem_cons.1 he with rfl | he
          · rfl
          · exact ih e he
      | failed => exact (List.mem_singleton.1 he) ▸ rfl
      | unanswered => exact (List.mem_singleton.1 he) ▸ rfl
  | failed => simp
  | unanswered => simp
  | lost => simp
  | stuck => simp

/-- A course has a result if all of its plan ended and nothing failed. -/
theorem exists_ok {outcome : Except Shell.Fault α}
    (h : Course sh readings before plan ran commands outcome)
    (hkeys : ran.map (.ok ·.key) = plan.keys) (hcodes : ∀ e ∈ ran, e.code = 0) :
    ∃ a, outcome = .ok a := by
  induction h with
  | done a => exact ⟨a, rfl⟩
  | ran _ millis _ ih =>
      exact ih (List.tail_eq_of_cons_eq hkeys) fun e he => hcodes e (.tail _ he)
  | failed _ nonzero => exact absurd (hcodes _ (.head _)) nonzero
  | unanswered => cases hkeys
  | lost => cases hkeys
  | stuck => cases hkeys

/-- A failed command is the last one that ended.  Its exit code is not 0, or the plan needs
its output and it printed nothing. -/
theorem of_commandFailed {f : CommandFailure}
    (h : Course sh readings before plan ran commands
      (.error (.commandFailed f) : Except Shell.Fault α)) :
    ∃ front e, ran = front ++ [e] ∧ f.argv = e.argv ∧ f.cwd = e.cwd ∧ f.code = e.code ∧
      (e.code ≠ 0 ∨ ∃ p, .ok p ∈ plan ∧ p.key = e.key ∧ p.output = some []) := by
  generalize ho : Except.error (Fault.commandFailed f) = outcome at h
  induction h with
  | done a => cases ho
  | ran _ millis _ ih =>
      obtain ⟨front, e, rfl, hargv, hcwd, hcode, hreason⟩ := ih ho
      refine ⟨_ :: front, e, rfl, hargv, hcwd, hcode, hreason.imp_right ?_⟩
      rintro ⟨p, hp, hkey, hblank⟩
      exact ⟨p, .tail _ hp, hkey, hblank⟩
  | failed live nonzero millis detail =>
      cases ho
      exact ⟨[], _, rfl, rfl, rfl, rfl, .inl nonzero⟩
  | unanswered live blank next millis =>
      cases ho
      exact ⟨[], _, rfl, rfl, rfl, rfl, .inr ⟨_, .head _, rfl, blank⟩⟩
  | lost => cases ho
  | stuck other =>
      cases ho
      exact absurd rfl (other f)

end Course

/-! ## How far a history goes -/

/-- A history goes through the front of a plan up to what comes next: all commands in front of it
ended well, and they printed what they were asked for. -/
structure ComesTo (plan : Plan) (history : List Executed) (front : List Planned)
    (next : Except Shell.Fault Planned) : Prop where
  split : ∃ rest, plan = front.map .ok ++ next :: rest
  ended : history.map Executed.key = front.map Planned.key
  codes : ∀ e ∈ history, e.code = 0
  answered : ∀ p ∈ front, p.output ≠ some []

theorem ComesTo.start (next : Except Shell.Fault Planned) (rest : Plan) :
    ComesTo (next :: rest) [] [] next := ⟨⟨rest, rfl⟩, rfl, nofun, nofun⟩

theorem ComesTo.cons {p : Planned} {plan : Plan} {history : List Executed} {front : List Planned}
    {next : Except Shell.Fault Planned} (h : ComesTo plan history front next)
    (answered : p.output ≠ some []) (millis : Int) :
    ComesTo (.ok p :: plan) (⟨p.argv, p.cwd, 0, millis⟩ :: history) (p :: front) next where
  split := by
    obtain ⟨rest, rfl⟩ := h.split
    exact ⟨rest, rfl⟩
  ended := congrArg (List.cons p.key) h.ended
  codes := List.forall_mem_cons.2 ⟨rfl, h.codes⟩
  answered := List.forall_mem_cons.2 ⟨answered, h.answered⟩

theorem ComesTo.tail {p : Planned} {e : Executed} {item : Except Shell.Fault Planned} {plan : Plan}
    {history : List Executed} {front : List Planned} {next : Except Shell.Fault Planned}
    (h : ComesTo (item :: plan) (e :: history) (p :: front) next) :
    ComesTo plan history front next where
  split := by
    obtain ⟨rest, hplan⟩ := h.split
    exact ⟨rest, List.tail_eq_of_cons_eq hplan⟩
  ended := List.tail_eq_of_cons_eq h.ended
  codes := (List.forall_mem_cons.1 h.codes).2
  answered := (List.forall_mem_cons.1 h.answered).2

namespace Course

variable {sh : Shell} {α β : Type} {readings : List Number} {plan : Plan} {ran : List Executed}
  {before commands : List Command} {outcome : Except Shell.Fault α} {front : List Planned}
  {p : Planned} {fault : Shell.Fault}

/-- A course that ends with another fault than a failed command comes to this fault, or to a
command that has no result. -/
theorem comesTo_of_error (hfailed : ∀ f, fault ≠ .commandFailed f)
    (h : Course sh readings before plan ran commands (.error fault : Except Shell.Fault α)) :
    ∃ front next, ComesTo plan ran front next ∧ (next = .error fault ∨
      ∃ p f, next = .ok p ∧ fault = .noResult f ∧
        sh.Loses readings (before ++ front.flatMap sh.started) p f) := by
  generalize ho : Except.error fault = outcome at h
  induction h with
  | done a => cases ho
  | @ran before _ p _ _ _ answered millis _ ih =>
      obtain ⟨front, next, hcomes, hnext⟩ := ih ho
      refine ⟨p :: front, next, hcomes.cons answered millis, hnext.imp_right ?_⟩
      rintro ⟨q, f, rfl, hfault, hloses⟩
      refine ⟨q, f, rfl, hfault, ?_⟩
      rwa [List.flatMap_cons, ← List.append_assoc]
  | failed =>
      cases ho
      exact absurd rfl (hfailed _)
  | unanswered =>
      cases ho
      exact absurd rfl (hfailed _)
  | @lost before _ p plan _ _ f loses =>
      cases ho
      refine ⟨[], .ok p, .start _ plan, .inr ⟨p, f, rfl, rfl, ?_⟩⟩
      rwa [List.flatMap_nil, List.append_nil]
  | @stuck _ _ plan _ =>
      cases ho
      exact ⟨[], _, .start _ plan, .inl rfl⟩

/-- A course that comes to a fault of its plan ends with it. -/
theorem eq_error_of_comesTo (h : Course sh readings before plan ran commands outcome)
    (hcomes : ComesTo plan ran front (.error fault)) : outcome = .error fault := by
  induction h generalizing front with
  | done _ =>
      obtain ⟨rest, hplan⟩ := hcomes.split
      cases front <;> cases hplan
  | ran _ millis _ ih =>
      cases front with
      | nil => cases hcomes.ended
      | cons p front => exact ih hcomes.tail
  | failed _ nonzero => exact absurd (hcomes.codes _ (.head _)) nonzero
  | unanswered _ blank =>
      obtain ⟨rest, hplan⟩ := hcomes.split
      cases front with
      | nil => cases hplan
      | cons p front =>
          obtain rfl := Except.ok.inj (List.cons.inj hplan).1
          exact absurd blank (hcomes.answered _ (.head _))
  | lost =>
      obtain ⟨rest, hplan⟩ := hcomes.split
      cases front with
      | nil => cases hplan
      | cons p front => cases hcomes.ended
  | stuck =>
      obtain ⟨rest, hplan⟩ := hcomes.split
      cases front with
      | nil =>
          cases hplan
          rfl
      | cons p front => cases hplan

/-- A course that comes to a command and does not end it has no result of the command. -/
theorem lost_of_comesTo (h : Course sh readings before plan ran commands outcome)
    (hcomes : ComesTo plan ran front (.ok p)) : ∃ f, outcome = .error (.noResult f) := by
  induction h generalizing front with
  | done _ =>
      obtain ⟨rest, hplan⟩ := hcomes.split
      cases front <;> cases hplan
  | ran _ millis _ ih =>
      cases front with
      | nil => cases hcomes.ended
      | cons p front => exact ih hcomes.tail
  | failed _ nonzero => exact absurd (hcomes.codes _ (.head _)) nonzero
  | unanswered _ blank =>
      obtain ⟨rest, hplan⟩ := hcomes.split
      cases front with
      | nil => cases hcomes.ended
      | cons p front =>
          obtain rfl := Except.ok.inj (List.cons.inj hplan).1
          exact absurd blank (hcomes.answered _ (.head _))
  | lost => exact ⟨_, rfl⟩
  | stuck =>
      obtain ⟨rest, hplan⟩ := hcomes.split
      cases front <;> cases hplan

/-! ## Live and dry courses -/

/-- What a live course starts is a front of the plan. -/
theorem prefix_commands (live : sh.context.dryRun = false)
    (h : Course sh readings before plan ran commands outcome) :
    commands.map .ok <+: plan.map fun p => p.map sh.command := by
  have hstarted (p : Planned) : sh.started p = [sh.command p] := by simp [started, live]
  induction h with
  | done _ => exact List.prefix_rfl
  | @ran _ _ p _ _ _ _ millis _ ih =>
      rw [hstarted p]
      exact (List.prefix_cons_inj _).2 ih
  | @failed _ p => exact hstarted p ▸ ⟨_, rfl⟩
  | @unanswered _ p => exact hstarted p ▸ ⟨_, rfl⟩
  | @lost _ _ p _ _ tried =>
      rcases tried with rfl | rfl
      · exact List.nil_prefix
      · exact hstarted p ▸ ⟨_, rfl⟩
  | stuck => exact List.nil_prefix

/-- A dry course starts nothing. -/
theorem commands_of_dry (dry : sh.context.dryRun = true)
    (h : Course sh readings before plan ran commands outcome) : commands = [] := by
  induction h with
  | done _ => rfl
  | ran _ millis _ ih => simp [started, dry, ih]
  | failed live => simp [dry] at live
  | unanswered live => simp [dry] at live
  | lost live => simp [dry] at live
  | stuck => rfl

/-- No command of a dry course fails. -/
theorem not_commandFailed_of_dry {f : CommandFailure} (dry : sh.context.dryRun = true) :
    ¬Course sh readings before plan ran commands
      (.error (.commandFailed f) : Except Shell.Fault α) := by
  intro h
  generalize ho : Except.error (Fault.commandFailed f) = outcome at h
  induction h with
  | done a => cases ho
  | ran _ millis _ ih => exact ih ho
  | failed live => simp [dry] at live
  | unanswered live => simp [dry] at live
  | lost live => simp [dry] at live
  | stuck other =>
      cases ho
      exact other f rfl

/-- A dry course through commands without faults has a result. -/
theorem exists_ok_of_dry (dry : sh.context.dryRun = true)
    (h : Course sh readings before plan ran commands outcome)
    (hplan : ∃ ps : List Planned, plan = ps.map .ok) : ∃ a, outcome = .ok a := by
  obtain ⟨ps, hplan⟩ := hplan
  induction h generalizing ps with
  | done a => exact ⟨a, rfl⟩
  | ran _ millis _ ih =>
      cases ps with
      | nil => cases hplan
      | cons q ps => exact ih ps (List.tail_eq_of_cons_eq hplan)
  | failed live => simp [dry] at live
  | unanswered live => simp [dry] at live
  | lost live => simp [dry] at live
  | stuck => cases ps <;> cases hplan

end Course

end Shell
end Bindery
