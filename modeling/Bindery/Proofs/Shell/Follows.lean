import Bindery.Pipeline
import Bindery.Proofs.Shell.Course

/-!
# Acts that follow plans

`Act.Follows` says that an act runs a plan from a session on and comes back to the
directories it started from.  Single commands follow plans of one command
(`run_follows`, `capture_follows`).  Acts that follow plans can be put one behind the
other (`Follows.bind`) and into a directory (`inside_follows`).
-/

namespace Bindery

/-- A session that goes on from another one in the same directories, with more commands
ended and handed to the system. -/
structure Session.Extends (s : Session) (ran : List Executed) (commands : List Command)
    (s' : Session) : Prop where
  cwd : s'.cwd = s.cwd
  outer : s'.outer = s.outer
  history : s'.history = s.history ++ ran
  commands : s'.machine.commands = s.machine.commands ++ commands
  readings : s'.machine.readings ⊆ s.machine.readings

namespace Session.Extends

variable {s s₁ s₂ : Session} {ran later : List Executed} {commands more : List Command}

theorem refl (s : Session) : s.Extends [] [] s :=
  ⟨rfl, rfl, by simp, by simp, List.Subset.refl _⟩

theorem trans (h : s.Extends ran commands s₁) (h' : s₁.Extends later more s₂) :
    s.Extends (ran ++ later) (commands ++ more) s₂ where
  cwd := h'.cwd.trans h.cwd
  outer := h'.outer.trans h.outer
  history := by rw [h'.history, h.history, List.append_assoc]
  commands := by rw [h'.commands, h.commands, List.append_assoc]
  readings := List.Subset.trans h'.readings h.readings

theorem logged (s : Session) (e : Event) : s.Extends [] [] (s.logged e) :=
  ⟨rfl, rfl, by simp [Session.logged], by simp [Session.logged], List.Subset.refl _⟩

theorem recorded (argv : List Text) (r : Result) (s : Session) :
    s.Extends [⟨argv, s.cwd, r.code, r.millis⟩] [] (Shell.recorded argv r s) :=
  ⟨rfl, rfl, rfl, by simp [Shell.recorded], List.Subset.refl _⟩

/-- What is done in a directory is done outside of it when the directory is left. -/
theorem leave {target : Path} (h : (s.enter target).Extends ran commands s₁) :
    s.Extends ran commands s₁.leave := by
  have houter : s₁.outer = s.cwd :: s.outer := h.outer
  simp only [Session.leave, houter]
  exact ⟨rfl, rfl, h.history, h.commands, h.readings⟩

end Session.Extends

namespace Act

variable {α β : Type} {sh : Shell} {s : Session} {plan rest : Plan}

/-- An act of a shell follows a plan from a session on, and its result has a property. -/
def Follows (act : Act α) (sh : Shell) (s : Session) (plan : Plan) (good : α → Prop) : Prop :=
  ∃ ran commands, s.Extends ran commands (act.run s).2 ∧
    Shell.Course sh s.machine.readings s.machine.commands plan ran commands (act.run s).1 ∧
    ∀ a, (act.run s).1 = .ok a → good a

namespace Follows

theorem of_run {act : Act α} {good : α → Prop} {outcome : Except Shell.Fault α} {s' : Session}
    {ran : List Executed} {commands : List Command} (h : act.run s = (outcome, s'))
    (hext : s.Extends ran commands s')
    (hcourse : Shell.Course sh s.machine.readings s.machine.commands plan ran commands outcome)
    (hgood : ∀ a, outcome = .ok a → good a) : act.Follows sh s plan good :=
  ⟨ran, commands, by rwa [h], by rwa [h], by rwa [h]⟩

theorem pure {good : α → Prop} {a : α} (h : good a) :
    (pure a : Act α).Follows sh s [] good :=
  ⟨[], [], .refl s, .done a, by rintro b ⟨⟩; exact h⟩

theorem throw {good : α → Prop} {fault : Shell.Fault} (h : ∀ f, fault ≠ .commandFailed f) :
    (throw fault : Act α).Follows sh s (.error fault :: plan) good :=
  ⟨[], [], .refl s, .stuck h, by rintro a ⟨⟩⟩

/-- One act behind another follows one plan behind another. -/
theorem bind {act : Act α} {f : α → Act β} {good : α → Prop} {good' : β → Prop}
    (h : act.Follows sh s plan good)
    (hf : ∀ a ran s', good a → s.Extends ran (sh.startedBy plan) s' →
      (f a).Follows sh s' rest good') :
    (act >>= f).Follows sh s (plan ++ rest) good' := by
  obtain ⟨ran, commands, hext, hcourse, hgood⟩ := h
  rcases hrun : act.run s with ⟨fault | a, s₁⟩
  · rw [hrun] at hext hcourse
    exact .of_run (run_bind_of_error hrun f) hext hcourse.append_of_error (by rintro b ⟨⟩)
  · rw [hrun] at hext hcourse hgood
    obtain ⟨-, -, -, hcommands⟩ := hcourse.of_ok
    obtain ⟨later, more, hext', hcourse', hgood'⟩ :=
      hf a ran s₁ (hgood a rfl) (hcommands ▸ hext)
    refine ⟨ran ++ later, commands ++ more, ?_⟩
    rw [run_bind_of_ok hrun]
    refine ⟨hext.trans hext', hcourse.append ?_, hgood'⟩
    rw [← hext.commands]
    exact hcourse'.mono hext.readings

/-- Turning a result into another one keeps the plan. -/
theorem map {act : Act α} {f : α → β} {good : α → Prop} {good' : β → Prop}
    (h : act.Follows sh s plan good) (hf : ∀ a, good a → good' (f a)) :
    (act >>= fun a => Pure.pure (f a)).Follows sh s plan good' := by
  have hbind : (act >>= fun a => Pure.pure (f a)).Follows sh s (plan ++ []) good' :=
    h.bind fun a _ _ ha _ => Follows.pure (hf a ha)
  rwa [List.append_nil] at hbind

theorem mono {act : Act α} {good good' : α → Prop} (h : act.Follows sh s plan good)
    (hgood : ∀ a, good a → good' a) : act.Follows sh s plan good' := by
  obtain ⟨ran, commands, hext, hcourse, hall⟩ := h
  exact ⟨ran, commands, hext, hcourse, fun a ha => hgood a (hall a ha)⟩

end Follows
end Act

namespace Shell

variable (sh : Shell)

/-! ## Single commands -/

/-- A live command either has a result, which is what its child comes to, or none. -/
theorem attempt_cases (live : sh.context.dryRun = false) (argv : List Text) (capture : Bool)
    (s : Session) : ∃ machine : Machine, machine.readings ⊆ s.machine.readings ∧
    ((∃ r, (sh.attempt argv capture).run s = (.ok r, { s with machine }) ∧
      machine.commands =
        s.machine.commands ++ [Machine.command argv s.cwd capture sh.seconds] ∧
      r.stdout = (sh.world.endingOf s.machine.commands
        (Machine.command argv s.cwd capture sh.seconds)).printed
          (Machine.command argv s.cwd capture sh.seconds)) ∨
    (∃ fault, (sh.attempt argv capture).run s = (.error (.noResult fault), { s with machine }) ∧
      (machine.commands = s.machine.commands ∨
        machine.commands =
          s.machine.commands ++ [Machine.command argv s.cwd capture sh.seconds]) ∧
      (s.machine.run sh.world sh.context argv s.cwd capture sh.seconds).1 = .error fault)) := by
  have hrun := run_attempt_of_live live argv capture s
  have hleaves := Machine.run_leaves sh.world sh.context argv s.cwd capture sh.seconds s.machine
  refine ⟨_, hleaves.readings, ?_⟩
  rcases Machine.run_cases sh.world sh.context argv s.cwd capture sh.seconds s.machine with
    ⟨millis, machine, h, hcommands⟩ | ⟨fault, machine, h, hcommands⟩
  · exact .inl ⟨_, by rw [hrun, h], by rw [h, hcommands], Ending.result_stdout _ _ _ _⟩
  · exact .inr ⟨fault, by rw [hrun, h], by rwa [h], by rw [h]⟩

/-- The planned command of texts in a directory. -/
def planned (argv : List Text) (capture : Bool) (s : Session) : Planned :=
  ⟨argv, s.cwd, if capture then some (sh.answer s.machine.commands argv s.cwd) else none⟩

/-- What a planned command prints is what it answers. -/
def Answers (capture : Bool) (argv : List Text) (s : Session) (r : Result) : Prop :=
  capture = true → Text.trim r.stdout = sh.answer s.machine.commands argv s.cwd

theorem command_planned (argv : List Text) (capture : Bool) (s : Session) :
    sh.command (sh.planned argv capture s) = Machine.command argv s.cwd capture sh.seconds := by
  cases capture <;> rfl

theorem isSome_output_planned (argv : List Text) (capture : Bool) (s : Session) :
    (sh.planned argv capture s).output.isSome = capture := by
  cases capture <;> rfl

/-- What a command comes to: it ends well, or it stops whatever is planned behind it. -/
inductive Tried (argv : List Text) (capture : Bool) (s : Session) :
    Except Fault Result × Session → Prop where
  /-- It ends well. -/
  | ended {r : Result} {s' : Session}
      (hext : s.Extends [⟨argv, s.cwd, 0, r.millis⟩] (sh.started (sh.planned argv capture s)) s')
      (answers : sh.Answers capture argv s r) : Tried argv capture s (.ok r, s')
  /-- It stops the plan. -/
  | stopped {fault : Fault} {s' : Session} {ran : List Executed} {commands : List Command}
      (hext : s.Extends ran commands s')
      (course : ∀ (α : Type) (rest : Plan), Course sh s.machine.readings s.machine.commands
        (.ok (sh.planned argv capture s) :: rest) ran commands
        (.error fault : Except Fault α)) : Tried argv capture s (.error fault, s')

theorem tried_execute (argv : List Text) (capture : Bool) (s : Session) :
    sh.Tried argv capture s ((sh.execute argv capture).run s) := by
  cases dry : sh.context.dryRun with
  | true =>
      have hcode : (dryResult capture).code = 0 := rfl
      rw [run_execute_of_zero (run_attempt_of_dry dry argv capture s) hcode]
      have hext := (Session.Extends.logged s (dryEvent argv s.cwd)).trans
        (.recorded argv (dryResult capture) _)
      have hstarted : sh.started (sh.planned argv capture s) = [] := by
        rw [started, dry, if_pos rfl]
      refine .ended (hstarted ▸ hext) ?_
      rintro rfl
      simp [dryResult, answer, dry]
  | false =>
      have hstarted : sh.started (sh.planned argv capture s) =
          [Machine.command argv s.cwd capture sh.seconds] := by
        simp [started, dry, command_planned]
      obtain ⟨machine, hreadings, ⟨r, hattempt, hcommands, hstdout⟩ |
        ⟨fault, hattempt, hcommands, hloses⟩⟩ := sh.attempt_cases dry argv capture s
      · have hext : s.Extends [⟨argv, s.cwd, r.code, r.millis⟩]
            (sh.started (sh.planned argv capture s)) (recorded argv r { s with machine }) :=
          ⟨rfl, rfl, rfl, hstarted ▸ hcommands, hreadings⟩
        by_cases hcode : r.code = 0
        · rw [run_execute_of_zero hattempt hcode]
          refine .ended (hcode ▸ hext) ?_
          rintro rfl
          simp [answer, dry, hstdout]
        · rw [run_execute_of_nonzero hattempt hcode]
          exact .stopped hext fun α rest => .failed dry hcode r.millis (Text.trim r.stderr)
      · rw [run_execute_of_error hattempt]
        have hlost : sh.Loses s.machine.readings s.machine.commands (sh.planned argv capture s)
            fault :=
          ⟨s.machine, rfl, List.Subset.refl _,
            by rw [sh.isSome_output_planned argv capture s]; exact hloses⟩
        rcases hcommands with hcommands | hcommands
        · have hext : s.Extends [] [] { s with machine } :=
            ⟨rfl, rfl, by simp, by simp [hcommands], hreadings⟩
          exact .stopped hext fun α rest => .lost dry (.inl rfl) hlost
        · have hext : s.Extends [] (sh.started (sh.planned argv capture s)) { s with machine } :=
            ⟨rfl, rfl, by simp, hstarted ▸ hcommands, hreadings⟩
          exact .stopped hext fun α rest => .lost dry (.inr rfl) hlost

/-- A command that answers what it is asked goes through the plan of it. -/
theorem execute_follows {argv : List Text} {capture : Bool} {s : Session}
    (hanswered : (sh.planned argv capture s).output ≠ some []) :
    (sh.execute argv capture).Follows sh s [.ok (sh.planned argv capture s)]
      (sh.Answers capture argv s) := by
  have htried := sh.tried_execute argv capture s
  generalize hrun : (sh.execute argv capture).run s = run at htried
  cases htried with
  | @ended r s' hext answers =>
      refine .of_run hrun hext ?_ (by rintro a ⟨⟩; exact answers)
      have hcourse : Course sh s.machine.readings s.machine.commands
          [.ok (sh.planned argv capture s)] _ _ (.ok r) := .ran hanswered r.millis (.done r)
      rwa [List.append_nil] at hcourse
  | stopped hext course => exact .of_run hrun hext (course _ []) (by rintro a ⟨⟩)

theorem run_follows (argv : List Text) (s : Session) :
    (sh.run (argv.map .text)).Follows sh s [.ok ⟨argv, s.cwd, none⟩] fun _ => True := by
  rw [run, executeWords_texts]
  have hanswered : (sh.planned argv false s).output ≠ some [] := nofun
  exact (sh.execute_follows hanswered).mono fun _ _ => trivial

theorem capture_follows {argv : List Text} {s : Session}
    (hanswered : sh.answer s.machine.commands argv s.cwd ≠ []) :
    (sh.capture (argv.map .text)).Follows sh s
      [.ok ⟨argv, s.cwd, some (sh.answer s.machine.commands argv s.cwd)⟩]
      fun output => output = sh.answer s.machine.commands argv s.cwd := by
  rw [capture, executeWords_texts]
  have hplanned : (sh.planned argv true s).output ≠ some [] :=
    fun h => hanswered (Option.some.inj h)
  exact (sh.execute_follows hplanned).map fun r hr => hr rfl

theorem answer_ne_nil_of_dry (dry : sh.context.dryRun = true) (before : List Command)
    (argv : List Text) (cwd : Path) : sh.answer before argv cwd ≠ [] := by
  simp only [answer, dry, if_true]
  decide

/-- A plan whose next command needs an output ends at the command that prints nothing. -/
theorem capture_follows_of_blank {α : Type} {argv : List Text} {s : Session} {f : Text → Act α}
    {good : α → Prop} (hblank : sh.answer s.machine.commands argv s.cwd = [])
    (hf : ∀ s', s'.cwd = s.cwd →
      (f []).run s' = (.error (.commandFailed ⟨argv, s.cwd, 0, .noOutput⟩), s'))
    (next : Except Fault Planned) (rest : Plan) :
    (sh.capture (argv.map .text) >>= f).Follows sh s
      (.ok ⟨argv, s.cwd, some []⟩ :: next :: rest) good := by
  have live : sh.context.dryRun = false := by
    cases dry : sh.context.dryRun with
    | true => exact absurd hblank (sh.answer_ne_nil_of_dry dry _ _ _)
    | false => rfl
  have hplanned : sh.planned argv true s = ⟨argv, s.cwd, some []⟩ := by
    rw [planned, hblank, if_pos rfl]
  have htried := sh.tried_execute argv true s
  unfold Shell.capture
  rw [executeWords_texts, bind_assoc]
  generalize hrun : (sh.execute argv true).run s = run at htried
  cases htried with
  | @ended r s' hext answers =>
      have hprinted : Text.trim r.stdout = [] := (answers rfl).trans hblank
      have hend : (sh.execute argv true >>= fun r => pure (Text.trim r.stdout) >>= f).run s =
          (.error (.commandFailed ⟨argv, s.cwd, 0, .noOutput⟩), s') := by
        rw [Act.run_bind_of_ok hrun, pure_bind, hprinted]
        exact hf s' hext.cwd
      rw [hplanned] at hext
      exact .of_run hend hext (.unanswered live rfl next r.millis) (by rintro a ⟨⟩)
  | stopped hext course =>
      rw [hplanned] at course
      exact .of_run (Act.run_bind_of_error hrun _) hext (course α _) (by rintro a ⟨⟩)

theorem log_follows (e : Event) (s : Session) : (log e).Follows sh s [] fun _ => True :=
  ⟨[], [], .logged s e, .done _, fun _ _ => trivial⟩

/-! ## Directories -/

/-- The directory that a path leads to from another one, or why it cannot be resolved. -/
def directory (start path : Path) : Except Fault Path :=
  (sh.world.files.resolve sh.world.current (start / path)).mapError .unresolved

/-- The plan of commands in a directory, or of the fault that keeps them from it. -/
def planIn (dir : Except Fault Path) (argvs : List (List Text)) : Plan :=
  argvs.map fun argv => dir.map fun cwd => ⟨argv, cwd, none⟩

theorem inside_follows {α : Type} {path : Path} {body : Path → Act α} {s : Session}
    {argvs : List (List Text)} {good : α → Prop} (hne : argvs ≠ [])
    (h : ∀ dir s', sh.directory s.cwd path = .ok dir → s'.cwd = dir →
      (body dir).Follows sh s' (planIn (.ok dir) argvs) good) :
    (sh.inside path body).Follows sh s (planIn (sh.directory s.cwd path) argvs) good := by
  unfold inside
  cases hresolve : sh.world.files.resolve sh.world.current (s.cwd / path) with
  | error fault =>
      have htarget : (sh.target path).run s = (.error (.unresolved fault), s) := by
        rw [target, Act.run_mk, hresolve]
      obtain ⟨argv, argvs, rfl⟩ := List.exists_cons_of_ne_nil hne
      have hdir : sh.directory s.cwd path = .error (.unresolved fault) := by
        rw [directory, hresolve]
        rfl
      rw [hdir]
      exact .of_run (Act.run_bind_of_error htarget _) (.refl s) (.stuck (by simp)) (by rintro a ⟨⟩)
  | ok dir =>
      have htarget : (sh.target path).run s = (.ok dir, s.logged (enterEvent dir)) := by
        rw [target, Act.run_mk, hresolve]
      have hdir : sh.directory s.cwd path = .ok dir := by
        rw [directory, hresolve]
        rfl
      obtain ⟨ran, commands, hext, hcourse, hgood⟩ :=
        h dir ((s.logged (enterEvent dir)).enter dir) hdir rfl
      refine ⟨ran, commands, ?_⟩
      rw [Act.run_bind_of_ok htarget, run_within, hdir]
      exact ⟨(Session.Extends.logged s (enterEvent dir)).trans hext.leave, hcourse, hgood⟩

end Shell
end Bindery
