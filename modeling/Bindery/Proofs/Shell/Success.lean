import Bindery.Proofs.Machine.Returns
import Bindery.Proofs.Shell.Act

/-!
# What counts as success

A command that returns has the exit code 0 only if its child succeeds, and a live shell goes on
only then.  Otherwise it stops with the exit code of the command.  `success_exact` says this for
every command, with a context and without one.

A command has no result if the system refuses it or cannot wait for its child, if the time between
two readings of the clock is no number of milliseconds, or if a number that has to be written is
too long.
-/

namespace Bindery

/-! ## Commands -/

/-- The results of a command: when it has one, and what that tells. -/
structure Machine.Reports (w : World) (ctx? : Option Context) (argv : List Text) (cwd : Path)
    (capture : Bool) (seconds : Value) (m : Machine) : Prop where
  /-- The results that the command has. -/
  returns : ∀ r, (∃ m', m.runWith w ctx? argv cwd capture seconds = (.ok r, m')) ↔
    m.Returns w ctx? argv cwd capture seconds r
  /-- A result tells how the child ended. -/
  told : ∀ r m', m.runWith w ctx? argv cwd capture seconds = (.ok r, m') →
    w.Told m.commands (Machine.command argv cwd capture seconds) seconds r
  /-- A number of seconds that is not above 0 sets no limit. -/
  unlimited : ∀ n, seconds.number? = some n → n.isPositive = false →
    (Machine.command argv cwd capture seconds).timeout = none

theorem Machine.reports {w : World} {argv : List Text} {cwd : Path} {seconds : Value} {n : Number}
    (hargv : argv ≠ []) (hn : seconds.number? = some n) (ctx? : Option Context) (capture : Bool)
    (m : Machine) :
    m.Reports w ctx? argv cwd capture seconds where
  returns _ := runWith_ok_iff hargv hn
  told _ m' hrun := ((runWith_ok_iff hargv hn).1 ⟨m', hrun⟩).told
  unlimited n' hn' hpositive := by
    refine Option.not_isSome_iff_eq_none.1 fun hsome => ?_
    rw [timeout_isSome_iff hn', hpositive] at hsome
    cases hsome

namespace Shell

variable {sh : Shell} {s : Session} {argv : List Text} {capture : Bool} {r : Result} {n : Number}

/-! ## Live shells -/

/-- The command of a live shell has a result. -/
def HasResult (sh : Shell) (s : Session) (argv : List Text) (capture : Bool) (r : Result) : Prop :=
  s.machine.Returns sh.world (some sh.context) argv s.cwd capture sh.seconds r

/-- The child of the command of a shell succeeds. -/
def Succeeds (sh : Shell) (s : Session) (argv : List Text) (capture : Bool) : Prop :=
  sh.world.Succeeds s.machine.commands (Machine.command argv s.cwd capture sh.seconds)

/-- The failure of a command with a result. -/
def failureOf (s : Session) (argv : List Text) (r : Result) : CommandFailure :=
  ⟨argv, s.cwd, r.code, .exited (Text.trim r.stderr)⟩

/-- The outcome of a live shell that runs a command. -/
inductive Ends {α : Type} (sh : Shell) (s : Session) (argv : List Text) (capture : Bool) :
    Except Fault α → Prop where
  /-- The command has the exit code 0. -/
  | succeeded {r : Result} {a : α} : sh.HasResult s argv capture r → r.code = 0 →
      Ends sh s argv capture (.ok a)
  /-- The command has another exit code. -/
  | failed {r : Result} : sh.HasResult s argv capture r → r.code ≠ 0 →
      Ends sh s argv capture (.error (.commandFailed (failureOf s argv r)))
  /-- The command has no result. -/
  | lost {fault : Machine.Fault} : (∀ r, ¬sh.HasResult s argv capture r) →
      Ends sh s argv capture (.error (.noResult fault))

/-- A live shell goes on if the child of a command succeeds, and else stops with its failure. -/
structure FailsFast {α : Type} (sh : Shell) (s : Session) (argv : List Text) (capture : Bool)
    (outcome : Except Fault α) : Prop where
  /-- The shell goes on only after success. -/
  goesOn : (∃ a, outcome = .ok a) ↔
    sh.Succeeds s argv capture ∧ ∃ r, sh.HasResult s argv capture r
  /-- A failure has the exit code of the command. -/
  stops : ∀ f, outcome = .error (.commandFailed f) ↔
    ∃ r, sh.HasResult s argv capture r ∧ r.code ≠ 0 ∧ f = failureOf s argv r

section

variable (live : sh.context.dryRun = false) (hargv : argv ≠ [])
  (hn : sh.seconds.number? = some n)

include live hargv hn

theorem ends_execute (capture : Bool) :
    Ends sh s argv capture ((sh.execute argv capture).run s).1 := by
  have hresult : ∀ r, (∃ m', s.machine.runWith sh.world (some sh.context) argv s.cwd capture
      sh.seconds = (.ok r, m')) ↔ sh.HasResult s argv capture r := fun r =>
    Machine.runWith_ok_iff hargv hn
  have hattempt := run_attempt_of_live live argv capture s
  cases hrun : s.machine.run sh.world sh.context argv s.cwd capture sh.seconds with
  | mk result m =>
      rw [hrun] at hattempt
      cases result with
      | error fault =>
          rw [run_execute_of_error hattempt]
          refine .lost fun r hr => ?_
          obtain ⟨m', hok⟩ := (hresult r).2 hr
          cases hrun.symm.trans hok
      | ok r =>
          have hr : sh.HasResult s argv capture r := (hresult r).1 ⟨m, hrun⟩
          by_cases hcode : r.code = 0
          · rw [run_execute_of_zero hattempt hcode]
            exact .succeeded hr hcode
          · rw [run_execute_of_nonzero hattempt hcode]
            exact .failed hr hcode

theorem ends_run : Ends sh s argv false ((sh.run (argv.map .text)).run s).1 := by
  rw [run, executeWords_texts]
  exact ends_execute live hargv hn false

theorem ends_capture : Ends sh s argv true ((sh.capture (argv.map .text)).run s).1 := by
  have hends := ends_execute (s := s) live hargv hn true
  rw [Shell.capture, executeWords_texts, Act.run_bind]
  cases hrun : (sh.execute argv true).run s with
  | mk outcome s' =>
      rw [hrun] at hends
      cases hends with
      | succeeded hr hcode => exact .succeeded hr hcode
      | failed hr hcode => exact .failed hr hcode
      | lost hnone => exact .lost hnone

end

/-- A command has one result. -/
theorem HasResult.eq (hargv : argv ≠ []) (hn : sh.seconds.number? = some n) {r' : Result}
    (h : sh.HasResult s argv capture r) (h' : sh.HasResult s argv capture r') : r = r' := by
  obtain ⟨m, hrun⟩ := (Machine.runWith_ok_iff hargv hn).2 h
  obtain ⟨m', hrun'⟩ := (Machine.runWith_ok_iff hargv hn).2 h'
  cases hrun.symm.trans hrun'
  rfl

theorem Ends.failsFast {α : Type} {outcome : Except Fault α} (hargv : argv ≠ [])
    (hn : sh.seconds.number? = some n) (h : Ends sh s argv capture outcome) :
    FailsFast sh s argv capture outcome := by
  have hzero : ∀ r, sh.HasResult s argv capture r →
      (r.code = 0 ↔ sh.Succeeds s argv capture) := fun r hr => hr.told.zero
  have hone : ∀ r r', sh.HasResult s argv capture r → sh.HasResult s argv capture r' → r = r' :=
    fun r r' => HasResult.eq hargv hn
  cases h with
  | @succeeded r a hr hcode =>
      refine ⟨iff_of_true ⟨a, rfl⟩ ⟨(hzero r hr).1 hcode, r, hr⟩, fun f => iff_of_false nofun ?_⟩
      rintro ⟨r', hr', hcode', -⟩
      rw [hone r' r hr' hr] at hcode'
      exact hcode' hcode
  | @failed r hr hcode =>
      refine ⟨iff_of_false (by simp) fun h => hcode ((hzero r hr).2 h.1), fun f => ?_⟩
      constructor
      · intro heq
        cases heq
        exact ⟨r, hr, hcode, rfl⟩
      · rintro ⟨r', hr', -, rfl⟩
        rw [hone r' r hr' hr]
  | lost hnone =>
      refine ⟨iff_of_false (by simp) ?_, fun f => iff_of_false nofun ?_⟩
      · rintro ⟨-, r, hr⟩
        exact hnone r hr
      · rintro ⟨r, hr, -⟩
        exact hnone r hr

/-- The result of a command tells how its child ended, and a live shell goes on only after
success. -/
theorem success_exact (hargv : argv ≠ []) (hn : sh.seconds.number? = some n) :
    (∀ ctx? capture, s.machine.Reports sh.world ctx? argv s.cwd capture sh.seconds) ∧
    (sh.context.dryRun = false →
      FailsFast sh s argv false ((sh.run (argv.map .text)).run s).1 ∧
      FailsFast sh s argv true ((sh.capture (argv.map .text)).run s).1) := by
  constructor
  · intro ctx? capture
    exact s.machine.reports hargv hn ctx? capture
  · intro live
    exact ⟨(ends_run live hargv hn).failsFast hargv hn,
      (ends_capture live hargv hn).failsFast hargv hn⟩

/-- A shell in a directory without a limit for what its children do. -/
def slowShell : Shell where
  world :=
    { files := { mount := ["srv"], entries := [] }
      current := ["srv"]
      children := fun _ c =>
        { hangs := c.program.text? = some "sleep", stdout := [0x68, 0x69] } }
  context :=
    { runId := "r1", root := .ofNames ["srv"], logJson := false, verbose := false,
      quiet := false, dryRun := false, ci := false, refName := none }
  seconds := .number (.int 5)

/-- A command that succeeds, and one that is stopped. -/
theorem success_exact_of_slow :
    let s : Session := { cwd := .ofNames ["srv"], machine := { clock := [.int 0] } }
    (∃ r, ((slowShell.run ([("true" : Text)].map .text)).run s).1 = .ok r) ∧
    ((slowShell.capture ([("sleep" : Text)].map .text)).run s).1 =
      .error (.commandFailed
        ⟨["sleep"], s.cwd, exitTimeout, .exited "command timed out after 5s"⟩) := by
  intro s
  have : FileSystem.pathFault? s.cwd.text = none := by decide
  have hn : slowShell.seconds.number? = some (.int 5) := rfl
  have henter : slowShell.world.files.enter slowShell.world.current s.cwd = .ok () := by
    decide +kernel
  obtain ⟨-, htrue⟩ := success_exact (List.cons_ne_nil ("true" : Text) []) hn
  obtain ⟨-, hsleep⟩ := success_exact (List.cons_ne_nil ("sleep" : Text) []) hn
  constructor
  · refine (htrue rfl).1.goesOn.2
      ⟨⟨⟨henter, rfl⟩, ?_, rfl⟩, ⟨0, [], [], 0⟩, by decide, fun _ => rfl, ⟨0, rfl, ?_⟩, ?_, ?_⟩
    · intro hexceeds
      cases hexceeds.2
    · decide +kernel
    · intro _ hexceeds
      cases hexceeds.2
    · intro _ _ _
      decide +kernel
  · refine ((hsleep rfl).2.stops _).2
      ⟨⟨exitTimeout, "hi", "command timed out after 5s", 0⟩,
        ⟨by decide, fun _ => rfl, ⟨0, rfl, ?_⟩, ?_, ?_⟩, by decide, ?_⟩
    · decide +kernel
    · intro _ _
      decide +kernel
    · intro _ _ _
      decide +kernel
    · decide +kernel

/-- A command has no result if the readings of the clock are too far apart.  It has none either if
a number has to be written that is too long: the limit if the child is stopped, or the time if it
is logged. -/
theorem no_result_of_far_readings :
    let w := slowShell.world
    let cwd : Path := .ofNames ["srv"]
    let huge : Number := .int (Int.ofNat (Nat.pow 10 4300))
    let far : Machine := { clock := [.float 0.0, .float 1e306] }
    let still : Machine := { clock := [.float 0.0] }
    let late : Machine := { clock := [.int 0, huge] }
    (∀ reading ∈ far.clock, ∃ x k, reading = .float x ∧ (Parts.ofFloat x).truncate? = some k) ∧
    w.Succeeds [] (Machine.command ["true"] cwd true (.number (.int 0))) ∧
    (far.runWith w none ["true"] cwd true (.number (.int 0))).1 = .error (.duration .infinite) ∧
    w.Exceeds [] (Machine.command ["sleep"] cwd true (.number huge)) ∧
    (still.runWith w none ["sleep"] cwd true (.number huge)).1 = .error .unwritable ∧
    (late.runWith w (some slowShell.context) ["true"] cwd true (.number (.int 0))).1 =
      .error .unwritable := by
  intro w cwd huge far still late
  have hfinite : ∀ x : Float, (Parts.ofFloat x).truncate?.isSome = true →
      ∃ y k, Number.float x = .float y ∧ (Parts.ofFloat y).truncate? = some k := by
    intro x hx
    obtain ⟨k, hk⟩ := Option.isSome_iff_exists.1 hx
    exact ⟨x, k, rfl, hk⟩
  have henter : w.files.enter w.current cwd = .ok () := by decide +kernel
  refine ⟨fun reading hreading => ?_, ⟨⟨henter, rfl⟩, ?_, rfl⟩, ?_, ⟨?_, rfl⟩, ?_, ?_⟩
  · simp only [far, List.mem_cons, List.not_mem_nil, or_false] at hreading
    rcases hreading with rfl | rfl
    · exact hfinite 0.0 (by decide +kernel)
    · exact hfinite 1e306 (by decide +kernel)
  · intro hexceeds
    cases hexceeds.2
  · decide +kernel
  · decide +kernel
  · decide +kernel
  · decide +kernel

end Shell
end Bindery
