import Bindery.Proofs.Machine.Run
import Bindery.Proofs.Pipeline.Related

/-!
# The exit codes of failed commands

Which exit code a failed command has does not matter to what a shell does.
`World.SameButCodes` relates worlds whose children do the same, but that exit codes other
than 0 may be others.  In two such worlds a command comes to the same or fails in both
(`Machine.run_agrees`), and so does the pipeline (`runBook_agrees`).
-/

namespace Bindery

/-! ## Worlds -/

/-- Exit codes that are equal or both those of a failure. -/
def SameCode (a b : Int) : Prop := a = b ∨ a ≠ 0 ∧ b ≠ 0

/-- Children that do the same, but for the exit code of a failure. -/
structure Child.SameButCode (a b : Child) : Prop where
  startFault : a.startFault = b.startFault
  hangs : a.hangs = b.hangs
  exit : SameCode a.exit b.exit
  stdout : a.stdout = b.stdout
  stderr : a.stderr = b.stderr
  isProcess : a.isProcess = b.isProcess

/-- Worlds that are the same, but for the exit codes of failures. -/
structure World.SameButCodes (w w' : World) : Prop where
  files : w.files = w'.files
  current : w.current = w'.current
  children : ∀ before c, (w.children before c).SameButCode (w'.children before c)

variable {w w' : World}

theorem World.SameButCodes.ending (h : w.SameButCodes w') (before : List Command) (c : Command) :
    (w.children before c).ending w c = (w'.children before c).ending w' c ∨
    ∃ code code' stdout stderr, code ≠ 0 ∧ code' ≠ 0 ∧
      (w.children before c).ending w c = .ended code stdout stderr ∧
      (w'.children before c).ending w' c = .ended code' stdout stderr := by
  have hchild := h.children before c
  unfold Child.ending
  rw [← h.files, ← h.current, ← hchild.startFault, ← hchild.hangs, ← hchild.stdout,
    ← hchild.stderr]
  split
  · exact .inl rfl
  · split
    · exact .inl rfl
    · split
      · exact .inl rfl
      · rcases hchild.exit with hcode | ⟨hcode, hcode'⟩
        · rw [hcode]
          exact .inl rfl
        · exact .inr ⟨_, _, _, _, hcode, hcode', rfl, rfl⟩

/-! ## Commands -/

namespace Machine

/-- Running a command in two such worlds comes to the same, or fails in both. -/
theorem execute_agrees (h : w.SameButCodes w') (argv : List Value) (cwd : Path) (capture : Bool)
    (seconds : Value) (m : Machine) :
    m.execute w argv cwd capture seconds = m.execute w' argv cwd capture seconds ∨
    ∃ r r' m₁, m.execute w argv cwd capture seconds = (.ok r, m₁) ∧
      m.execute w' argv cwd capture seconds = (.ok r', m₁) ∧
      r.code ≠ 0 ∧ r'.code ≠ 0 ∧ r.millis = r'.millis := by
  have hprocess (before : List Command) (c : Command) := (h.children before c).isProcess
  have hrefusal (before : List Command) (c : Command) :
      refusal? (w.children before c) c = refusal? (w'.children before c) c := by
    rw [refusal?, hprocess, refusal?]
  have hwait (before : List Command) (c : Command) :
      waitFault? (w.children before c) c = waitFault? (w'.children before c) c := by
    rw [waitFault?, hprocess, waitFault?]
  have hfault (before : List Command) (c : Command) :
      faultOf? (w.children before c) c seconds = faultOf? (w'.children before c) c seconds := by
    funext ending
    cases ending <;> simp only [faultOf?, hwait]
  unfold execute
  cases limit? seconds with
  | error fault => exact .inl rfl
  | ok limit =>
      simp only [hrefusal, hfault]
      rcases h.ending m.tick.commands ⟨argv, cwd, capture, limit⟩ with
        hsame | ⟨code, code', stdout, stderr, hcode, hcode', hending, hending'⟩
      · left
        rw [hsame]
      · rw [hending, hending']
        simp only [faultOf?]
        generalize (refusal? _ _ <|> waitFault? _ _ : Option Fault) = fault?
        cases fault? with
        | some fault => exact .inl rfl
        | none =>
            dsimp only
            split
            · exact .inl rfl
            · exact .inr ⟨_, _, _, rfl, rfl, hcode, hcode', rfl⟩

theorem isShown_runEvent (ctx : Context) (argv : List Text) (cwd : Path) {r r' : Result}
    (hcode : r.code ≠ 0) (hcode' : r'.code ≠ 0) :
    (runEvent argv cwd r).isShown ctx = (runEvent argv cwd r').isShown ctx := by
  simp only [runEvent, Event.isShown, hcode, hcode', if_false]

/-- Running and logging a command in two such worlds comes to the same, or fails in both. -/
theorem run_agrees (h : w.SameButCodes w') (ctx : Context) (argv : List Text) (cwd : Path)
    (capture : Bool) (seconds : Value) (m : Machine) :
    m.run w ctx argv cwd capture seconds = m.run w' ctx argv cwd capture seconds ∨
    ∃ r r' m₁ m₁', m.run w ctx argv cwd capture seconds = (.ok r, m₁) ∧
      m.run w' ctx argv cwd capture seconds = (.ok r', m₁') ∧ r.code ≠ 0 ∧ r'.code ≠ 0 := by
  unfold run
  rcases execute_agrees h (argv.map .text) cwd capture seconds m with
    hsame | ⟨r, r', m₁, hrun, hrun', hcode, hcode', hmillis⟩
  · rw [hsame]
    exact .inl rfl
  · simp only [hrun, hrun', report, isShown_runEvent ctx argv cwd hcode hcode', hmillis]
    split
    · exact .inl rfl
    · exact .inr ⟨r, r', _, _, rfl, rfl, hcode, hcode'⟩

theorem runUnnamed_agrees (h : w.SameButCodes w') (words : List Value) (cwd : Path)
    (capture : Bool) (seconds : Value) (m : Machine) :
    m.runUnnamed w words cwd capture seconds = m.runUnnamed w' words cwd capture seconds := by
  unfold runUnnamed
  rcases execute_agrees h words cwd capture seconds m with
    hsame | ⟨r, r', m₁, hrun, hrun', -, -, -⟩
  · rw [hsame]
  · rw [hrun, hrun']

end Machine

/-! ## Acts -/

namespace Act

variable {α β : Type}

/-- From every session two acts come to the same, or a command fails in both. -/
def Agrees (act act' : Act α) : Prop :=
  ∀ s, act.run s = act'.run s ∨ ∃ f f', (act.run s).1 = .error (.commandFailed f) ∧
    (act'.run s).1 = .error (.commandFailed f')

namespace Agrees

theorem refl (act : Act α) : act.Agrees act := fun _ => .inl rfl

theorem bind {act act' : Act α} {f f' : α → Act β} (h : act.Agrees act')
    (hf : ∀ a, (f a).Agrees (f' a)) : (act >>= f).Agrees (act' >>= f') := by
  intro s
  rcases h s with hsame | ⟨e, e', he, he'⟩
  · rcases hrun : act.run s with ⟨fault | a, s₁⟩
    · left
      rw [run_bind_of_error hrun, run_bind_of_error (hsame ▸ hrun)]
    · rw [run_bind_of_ok hrun, run_bind_of_ok (hsame ▸ hrun)]
      exact hf a s₁
  · right
    refine ⟨e, e', ?_, ?_⟩
    · rw [run_bind_of_error (Prod.ext he rfl : act.run s = (_, (act.run s).2))]
    · rw [run_bind_of_error (Prod.ext he' rfl : act'.run s = (_, (act'.run s).2))]

theorem within {body body' : Act α} (h : body.Agrees body') (target : Path) :
    (Shell.within target body).Agrees (Shell.within target body') := by
  intro s
  rw [Shell.run_within, Shell.run_within]
  rcases h (s.enter target) with hsame | hfailed
  · rw [hsame]
    exact .inl rfl
  · exact .inr hfailed

theorem isClosed : Act.IsClosed @Agrees where
  pure _ := refl _
  throw _ := refl _
  get := refl _
  bind := bind
  within target h := within h target

end Agrees
end Act

namespace Shell

/-- The shell in another world. -/
def inWorld (sh : Shell) (w : World) : Shell := { sh with world := w }

variable {sh : Shell}

theorem execute_agrees (h : sh.world.SameButCodes w) (argv : List Text) (capture : Bool) :
    (sh.execute argv capture).Agrees ((sh.inWorld w).execute argv capture) := by
  intro s
  cases dry : sh.context.dryRun with
  | true =>
      left
      have hcontext : (sh.inWorld w).context.dryRun = true := dry
      have hrun := run_attempt_of_dry dry argv capture s
      have hrun' := run_attempt_of_dry hcontext argv capture s
      rw [run_execute_of_zero hrun rfl, run_execute_of_zero hrun' rfl]
  | false =>
      have hcontext : (sh.inWorld w).context.dryRun = false := dry
      have hrun := run_attempt_of_live dry argv capture s
      have hrun' := run_attempt_of_live hcontext argv capture s
      rcases Machine.run_agrees h sh.context argv s.cwd capture sh.seconds s.machine with
        hsame | ⟨r, r', m₁, m₁', hm, hm', hcode, hcode'⟩
      · left
        have hattempt : (sh.attempt argv capture).run s =
            ((sh.inWorld w).attempt argv capture).run s := by
          rw [hrun, hrun', hsame]
          rfl
        rw [execute, execute, Act.run_bind, Act.run_bind, hattempt]
      · right
        rw [hm] at hrun
        simp only [inWorld, hm'] at hrun'
        have hfailed : ((sh.inWorld w).execute argv capture).run s = _ :=
          run_execute_of_nonzero hrun' hcode'
        exact ⟨_, _, by rw [run_execute_of_nonzero hrun hcode], by rw [hfailed]⟩

theorem executeWords_agrees (h : sh.world.SameButCodes w) (words : List Value) (capture : Bool) :
    (sh.executeWords words capture).Agrees ((sh.inWorld w).executeWords words capture) := by
  unfold executeWords
  cases Value.texts? words with
  | some argv => exact execute_agrees h argv capture
  | none =>
      intro s
      left
      rw [run_executeUnnamed, run_executeUnnamed, Machine.runUnnamed_agrees h]
      rfl

/-! ## The pipeline -/

/-- Shells in two such worlds do the same, or a command fails in both. -/
theorem related_inWorld (h : sh.world.SameButCodes w) :
    Related @Act.Agrees sh (sh.inWorld w) where
  toIsClosed := Act.Agrees.isClosed
  words := executeWords_agrees h
  target path := by
    have htarget : sh.target path = (sh.inWorld w).target path := by
      unfold target inWorld
      rw [h.files, h.current]
    rw [htarget]
    exact .refl _
  skipped := .refl _
  ci := rfl
  refName := rfl

/-- In worlds that differ in the exit codes of failures the pipeline comes to the same, or a
command of it fails in both. -/
theorem runBook_agrees (h : sh.world.SameButCodes w) (c : Settings) :
    (sh.runBook c).Agrees ((sh.inWorld w).runBook c) :=
  (related_inWorld h).runBook (fun _ => .refl _) c

end Shell
end Bindery
