import Bindery.Shell.Basic

/-!
# Running acts

The equations of `Act`: what a result, a fault, and one act behind another come to
in a session.
-/

namespace Bindery
namespace Act

variable {α β : Type}

theorem run_mk (f : Session → Except Shell.Fault α × Session) (s : Session) :
    (ExceptT.mk f : Act α).run s = f s := rfl

@[simp] theorem run_pure (a : α) (s : Session) : (pure a : Act α).run s = (.ok a, s) := rfl

@[simp] theorem run_modify (f : Session → Session) (s : Session) :
    (modify f : Act PUnit).run s = (.ok ⟨⟩, f s) := rfl

theorem run_bind (act : Act α) (f : α → Act β) (s : Session) :
    (act >>= f).run s =
      match act.run s with
      | (.ok a, s) => (f a).run s
      | (.error fault, s) => (.error fault, s) := by
  change ExceptT.bindCont f (act.run s).1 (act.run s).2 = _
  rcases act.run s with ⟨_ | _, _⟩ <;> rfl

theorem run_bind_of_ok {act : Act α} {s s' : Session} {a : α} (h : act.run s = (.ok a, s'))
    (f : α → Act β) : (act >>= f).run s = (f a).run s' := by
  rw [run_bind, h]

theorem run_bind_of_error {act : Act α} {s s' : Session} {fault : Shell.Fault}
    (h : act.run s = (.error fault, s')) (f : α → Act β) :
    (act >>= f).run s = (.error fault, s') := by
  rw [run_bind, h]

end Act

/-! ## What a shell does -/

namespace Shell

section

variable {sh : Shell} {argv : List Text} {capture : Bool} {s s' : Session} {r : Result}

theorem run_attempt_of_dry (dry : sh.context.dryRun = true) (argv : List Text) (capture : Bool)
    (s : Session) : (sh.attempt argv capture).run s =
      (.ok (dryResult capture), s.logged (dryEvent argv s.cwd)) := by
  change (if sh.context.dryRun then _ else _) = _
  rw [dry]
  rfl

theorem run_attempt_of_live (live : sh.context.dryRun = false) (argv : List Text) (capture : Bool)
    (s : Session) : (sh.attempt argv capture).run s =
      match s.machine.run sh.world sh.context argv s.cwd capture sh.seconds with
      | (.ok r, machine) => (.ok r, { s with machine })
      | (.error fault, machine) => (.error (.noResult fault), { s with machine }) := by
  change (if sh.context.dryRun then _ else _) = _
  rw [live]
  rfl

theorem run_execute_of_zero (h : (sh.attempt argv capture).run s = (.ok r, s'))
    (hcode : r.code = 0) :
    (sh.execute argv capture).run s = (.ok r, recorded argv r s') := by
  rw [execute, Act.run_bind_of_ok h, Act.run_bind]
  simp only [Act.run_modify, hcode, if_true, Act.run_pure]

theorem run_execute_of_nonzero (h : (sh.attempt argv capture).run s = (.ok r, s'))
    (hcode : r.code ≠ 0) :
    (sh.execute argv capture).run s =
      (.error (.commandFailed ⟨argv, s'.cwd, r.code, .exited (Text.trim r.stderr)⟩),
        recorded argv r s') := by
  rw [execute, Act.run_bind_of_ok h, Act.run_bind]
  simp only [Act.run_modify, hcode, if_false]
  rfl

theorem run_execute_of_error {fault : Fault}
    (h : (sh.attempt argv capture).run s = (.error fault, s')) :
    (sh.execute argv capture).run s = (.error fault, s') := by
  rw [execute, Act.run_bind_of_error h]

end

/-- A session opens where its start, or else the root of the repository, resolves to. -/
theorem openAt_eq (sh : Shell) (start : Option Path) (m : Machine) : sh.openAt start m =
    (sh.world.files.resolve sh.world.current (start.getD sh.context.root)).map fun cwd =>
      { cwd, machine := m } := by
  unfold openAt
  cases sh.world.files.resolve sh.world.current (start.getD sh.context.root) <;> rfl

/-- A session that is opened has nothing behind it. -/
theorem eq_of_openAt {sh : Shell} {start : Option Path} {m : Machine} {s : Session}
    (h : sh.openAt start m = .ok s) : s = { cwd := s.cwd, machine := m } := by
  unfold openAt at h
  cases hresolve : sh.world.files.resolve sh.world.current (start.getD sh.context.root) with
  | error fault =>
      rw [hresolve] at h
      cases h
  | ok cwd =>
      rw [hresolve] at h
      cases h
      rfl

theorem run_within {α : Type} (target : Path) (body : Act α) (s : Session) :
    (within target body).run s =
      ((body.run (s.enter target)).1, (body.run (s.enter target)).2.leave) := rfl

theorem run_executeUnnamed (sh : Shell) (words : List Value) (capture : Bool) (s : Session) :
    (sh.executeUnnamed words capture).run s =
      if sh.context.dryRun then (.error (.noResult .wordKind), s)
      else
        let (r, machine) := s.machine.runUnnamed sh.world words s.cwd capture sh.seconds
        (r.mapError .noResult, { s with machine }) := rfl

theorem executeWords_texts (sh : Shell) (argv : List Text) (capture : Bool) :
    sh.executeWords (argv.map .text) capture = sh.execute argv capture := by
  rw [executeWords, Value.texts?_map_text]

end Shell
end Bindery
