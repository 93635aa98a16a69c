import Bindery.Proofs.Shell.Deed
import Bindery.Shell.Program

/-!
# The scope of directories

`Step.Does` says what steps may do in a directory.  It knows no stack: a block hands its own
directory to its body, and what stands behind the block goes on in the directory around it.
Each command runs in the directory of the innermost block around it, each fault ends the
blocks up to the next one that catches it, and a block whose directory cannot be resolved does
nothing of its body.

A shell keeps to this with its stack, from every session on (`Step.playAll_scoped`).
-/

namespace Bindery

/-! ## What is seen of a deed -/

namespace Deed

/-- The step that asks for a deed. -/
def step (d : Deed) : Step := if d.capture then .capture d.words else .run d.words

/-- What happens at a deed. -/
def happening (d : Deed) : Happening :=
  match d.outcome with
  | .ok r => if d.capture then .captured (Text.trim r.stdout) else .ran r
  | .error fault => if d.capture then .captureFailed fault else .runFailed fault

/-- The row of a deed. -/
def row (d : Deed) : Row := ⟨d.cwd, d.happening⟩

end Deed

/-- What happens when a block in a directory is left. -/
def Happening.leaving : Except Shell.Fault Unit → Happening
  | .ok () => .left
  | .error fault => .cdFailed fault

/-! ## Steps in a directory -/

/-- What steps may do in a directory: the moves, the rows and the outcome. -/
inductive Step.Does (sh : Shell) :
    Path → List Step → List Move → List Row → Except Shell.Fault Unit → Prop where
  /-- No step does nothing. -/
  | nil (dir : Path) : Does sh dir [] [] [] (.ok ())
  /-- A command runs in the directory. -/
  | command (d : Deed) : Does sh d.cwd [d.step] [.did d] [d.row] (d.outcome.map fun _ => ())
  /-- A block does its body in the directory that its path leads to. -/
  | cd {dir path target : Path} {body : List Step} {moves : List Move} {rows : List Row}
      {outcome : Except Shell.Fault Unit} (htarget : sh.directory dir path = .ok target)
      (hbody : Does sh target body moves rows outcome) :
      Does sh dir [.cd path body] (.noted (Shell.enterEvent target) :: moves)
        (⟨target, .entered target⟩ :: rows ++ [⟨dir, .leaving outcome⟩]) outcome
  /-- A block whose path leads to no directory does nothing. -/
  | unresolved {dir path : Path} {fault : Shell.Fault} (body : List Step)
      (htarget : sh.directory dir path = .error fault) :
      Does sh dir [.cd path body] [] [⟨dir, .cdFailed fault⟩] (.error fault)
  /-- A block that catches faults does its body in the same directory, and ends well. -/
  | attempt {dir : Path} {body : List Step} {moves : List Move} {rows : List Row}
      {outcome : Except Shell.Fault Unit} (hbody : Does sh dir body moves rows outcome) :
      Does sh dir [.attempt body] moves (rows ++ [⟨dir, .attempted (faultOf outcome)⟩]) (.ok ())
  /-- Behind a step that ends well, the next ones follow in the same directory. -/
  | cons {dir : Path} {step : Step} {steps : List Step} {moves later : List Move}
      {rows more : List Row} {outcome : Except Shell.Fault Unit}
      (hfirst : Does sh dir [step] moves rows (.ok ()))
      (hrest : Does sh dir steps later more outcome) :
      Does sh dir (step :: steps) (moves ++ later) (rows ++ more) outcome
  /-- Behind a step that stops at a fault, none follows. -/
  | stop {dir : Path} {step : Step} (steps : List Step) {moves : List Move} {rows : List Row}
      {fault : Shell.Fault} (hfirst : Does sh dir [step] moves rows (.error fault)) :
      Does sh dir (step :: steps) moves rows (.error fault)

/-! ## Playing steps -/

/-- What is played from a session on is what the steps do in its directory, and leaves the
directories as they were. -/
def Played.Scoped (p : Played) (sh : Shell) (s : Session) (steps : List Step) : Prop :=
  ∃ moves, s.Gains sh moves p.session ∧ Step.Does sh s.cwd steps moves p.rows p.outcome

namespace Step

variable {sh : Shell}

theorem play_run_scoped (words : List Value) (s : Session) :
    ((Step.run words).play sh s).Scoped sh s [.run words] := by
  obtain ⟨moves, hgains, answer, rfl, houtcome⟩ := sh.run_makes s words
  have hdoes : Does sh s.cwd _ _ _ _ := .command ⟨words, s.cwd, false, answer⟩
  simp only [Deed.step, Deed.row, Deed.happening, ← houtcome, Bool.false_eq_true, if_false] at hdoes
  rw [play, Played.ofAct]
  rcases hrun : (sh.run words).run s with ⟨fault | r, s₁⟩ <;>
    · rw [hrun] at hgains hdoes
      exact ⟨_, hgains, hgains.cwd.symm ▸ hdoes⟩

theorem play_capture_scoped (words : List Value) (s : Session) :
    ((Step.capture words).play sh s).Scoped sh s [.capture words] := by
  obtain ⟨moves, hgains, answer, rfl, houtcome⟩ := sh.capture_makes s words
  have hdoes : Does sh s.cwd _ _ _ _ := .command ⟨words, s.cwd, true, answer⟩
  simp only [Deed.step, Deed.row, Deed.happening, if_true] at hdoes
  rw [play, Played.ofAct]
  rcases hrun : (sh.capture words).run s with ⟨fault | output, s₁⟩
  · rw [hrun] at hgains houtcome
    cases hd : (Deed.mk words s.cwd true answer).outcome with
    | ok r =>
        rw [hd] at houtcome
        cases houtcome
    | error fault' =>
        rw [hd] at houtcome hdoes
        cases houtcome
        exact ⟨_, hgains, hgains.cwd.symm ▸ hdoes⟩
  · rw [hrun] at hgains houtcome
    cases hd : (Deed.mk words s.cwd true answer).outcome with
    | ok r =>
        rw [hd] at houtcome hdoes
        cases houtcome
        exact ⟨_, hgains, hgains.cwd.symm ▸ hdoes⟩
    | error fault =>
        rw [hd] at houtcome
        cases houtcome

mutual

/-- Playing a step is what the step does in the directory of the session. -/
theorem play_scoped (sh : Shell) : ∀ (step : Step) (s : Session),
    (step.play sh s).Scoped sh s [step]
  | .run words, s => play_run_scoped words s
  | .capture words, s => play_capture_scoped words s
  | .cd path body, s => by
      rw [play]
      cases hdir : sh.directory s.cwd path with
      | error fault =>
          rw [sh.run_target_of_error s hdir]
          exact ⟨[], .refl s, .unresolved body hdir⟩
      | ok dir =>
          rw [sh.run_target_of_ok s hdir]
          obtain ⟨moves, hgains, hdoes⟩ :=
            playAll_scoped sh body ((s.logged (Shell.enterEvent dir)).enter dir)
          have hleave := (Session.Gains.logged s (Shell.enterEvent dir)).trans hgains.leave
          refine ⟨_, hleave, ?_⟩
          simp only [Played.leave, hgains.leave.cwd]
          exact .cd hdir hdoes
  | .attempt body, s => by
      obtain ⟨moves, hgains, hdoes⟩ := playAll_scoped sh body s
      rw [play]
      refine ⟨moves, hgains, ?_⟩
      simp only [hgains.cwd]
      exact .attempt hdoes

/-- Playing steps is what the steps do in the directory of the session. -/
theorem playAll_scoped (sh : Shell) : ∀ (steps : List Step) (s : Session),
    (playAll sh steps s).Scoped sh s steps
  | [], s => ⟨[], .refl s, .nil s.cwd⟩
  | step :: steps, s => by
      obtain ⟨moves, hgains, hdoes⟩ := play_scoped sh step s
      rw [playAll]
      dsimp only
      split
      · next fault hfault =>
          rw [hfault] at hdoes
          refine ⟨moves, hgains, ?_⟩
          rw [hfault]
          exact .stop steps hdoes
      · next hok =>
          rw [hok] at hdoes
          obtain ⟨later, hgains', hrest⟩ := playAll_scoped sh steps (step.play sh s).session
          rw [hgains.cwd] at hrest
          exact ⟨moves ++ later, hgains.trans hgains', .cons hdoes hrest⟩

end

end Step
end Bindery
