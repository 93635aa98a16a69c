import Bindery.Proofs.Machine.Timed
import Bindery.Proofs.Pipeline.Related
import Bindery.Proofs.Shell.Ledger

/-!
# The log of a shell

A shell notes events, and the settings of its log say which of them are written and how.  If
the time of every command can be written, the settings have no part in anything else: not in a
command (`respond_logging`), not in the pipeline (`runBook_logging`), and not in steps
(`playAll_logging`).

`Shell.Logs` lists the events that a shell notes, each with a level of its own.
-/

namespace Bindery

/-- The context with other settings of the log. -/
def Context.logging (ctx : Context) (logJson verbose quiet : Bool) : Context :=
  { ctx with logJson, verbose, quiet }

namespace Session

/-- The time of a command from the session on can be written. -/
def IsTimed (s : Session) : Prop := Machine.IsTimed s.machine.readings

theorem machine_leave (s : Session) : s.leave.machine = s.machine := by
  unfold leave
  split <;> rfl

theorem Gains.isTimed {sh : Shell} {s s' : Session} {moves : List Move}
    (h : s.Gains sh moves s') (htimed : s.IsTimed) : s'.IsTimed :=
  Machine.IsTimed.mono htimed h.readings

end Session

namespace Act

variable {α β : Type}

/-- From every session in which times can be written two acts come to the same, and times can
be written behind them. -/
def SameTimed (act act' : Act α) : Prop :=
  ∀ s, s.IsTimed → act'.run s = act.run s ∧ (act.run s).2.IsTimed

namespace SameTimed

theorem bind {act act' : Act α} {f f' : α → Act β} (h : act.SameTimed act')
    (hf : ∀ a, (f a).SameTimed (f' a)) : (act >>= f).SameTimed (act' >>= f') := by
  intro s htimed
  obtain ⟨hsame, htimed'⟩ := h s htimed
  rcases hrun : act.run s with ⟨fault | a, s₁⟩
  · rw [run_bind_of_error hrun, run_bind_of_error (hsame.trans hrun)]
    exact ⟨rfl, by rwa [hrun] at htimed'⟩
  · rw [run_bind_of_ok hrun, run_bind_of_ok (hsame.trans hrun)]
    exact hf a s₁ (by rwa [hrun] at htimed')

theorem within {body body' : Act α} (h : body.SameTimed body') (target : Path) :
    (Shell.within target body).SameTimed (Shell.within target body') := by
  intro s htimed
  obtain ⟨hsame, htimed'⟩ := h (s.enter target) htimed
  rw [Shell.run_within, Shell.run_within, hsame]
  refine ⟨rfl, ?_⟩
  rwa [Session.IsTimed, Session.machine_leave]

theorem isClosed : Act.IsClosed @SameTimed where
  pure _ _ htimed := ⟨rfl, htimed⟩
  throw _ _ htimed := ⟨rfl, htimed⟩
  get _ htimed := ⟨rfl, htimed⟩
  bind := bind
  within target h := within h target

end SameTimed
end Act

namespace Shell

/-! ## Settings of the log -/

/-- The shell with other settings of the log. -/
def logging (sh : Shell) (logJson verbose quiet : Bool) : Shell :=
  { sh with context := sh.context.logging logJson verbose quiet }

variable (sh : Shell) (logJson verbose quiet : Bool) {s : Session}

theorem respond_logging {m : Machine} (h : Machine.IsTimed m.readings) (words : List Value)
    (cwd : Path) (capture : Bool) :
    (sh.logging logJson verbose quiet).respond words cwd capture m =
      sh.respond words cwd capture m := by
  have hrun := h.runWords_eq sh.world sh.context
    (sh.context.logging logJson verbose quiet) words cwd capture sh.seconds
  change (if sh.context.dryRun then _ else
    m.runWords sh.world (sh.context.logging logJson verbose quiet) words cwd capture sh.seconds) = _
  rw [hrun]
  rfl

theorem executeWords_sameTimed (words : List Value) (capture : Bool) :
    (sh.executeWords words capture).SameTimed
      ((sh.logging logJson verbose quiet).executeWords words capture) := by
  intro s htimed
  let d : Deed := ⟨words, s.cwd, capture, (sh.respond words s.cwd capture s.machine).1⟩
  have hsame := sh.respond_logging logJson verbose quiet htimed words s.cwd capture
  have hrun := sh.run_executeWords s (d := d) rfl rfl
  have hrun' := (sh.logging logJson verbose quiet).run_executeWords s (d := d) rfl
    (congrArg Prod.fst hsame).symm
  have hsession : (sh.logging logJson verbose quiet).respond d.words d.cwd d.capture s.machine =
      sh.respond d.words d.cwd d.capture s.machine := hsame
  rw [hsession, ← hrun] at hrun'
  obtain ⟨moves, hgains, -⟩ := sh.executeWords_makes s words capture
  exact ⟨hrun', hgains.isTimed htimed⟩

/-- Shells that differ in the settings of the log do the same. -/
theorem related_logging : Related @Act.SameTimed sh (sh.logging logJson verbose quiet) where
  toIsClosed := Act.SameTimed.isClosed
  words := sh.executeWords_sameTimed logJson verbose quiet
  target path := by
    intro s htimed
    refine ⟨rfl, ?_⟩
    cases hdir : sh.directory s.cwd path with
    | error fault => rwa [sh.run_target_of_error s hdir]
    | ok dir => rwa [sh.run_target_of_ok s hdir]
  skipped _ htimed := ⟨rfl, htimed⟩
  ci := rfl
  refName := rfl

theorem runBook_logging (h : s.IsTimed) (c : Settings) :
    ((sh.logging logJson verbose quiet).runBook c).run s = (sh.runBook c).run s :=
  ((sh.related_logging logJson verbose quiet).runBook (fun _ _ htimed => ⟨rfl, htimed⟩) c s h).1

theorem performAll_logging (h : s.IsTimed) (c : Settings) (stages : List Stage) :
    ((sh.logging logJson verbose quiet).performAll c stages).run s =
      (sh.performAll c stages).run s :=
  ((sh.related_logging logJson verbose quiet).performAll c stages s h).1

theorem ofAct_logging {α : Type} {act act' : Act α} (h : act.SameTimed act') (htimed : s.IsTimed)
    (done : α → Happening) (failed : Fault → Happening) :
    Played.ofAct act' done failed s = Played.ofAct act done failed s := by
  rw [Played.ofAct, Played.ofAct, (h s htimed).1]

end Shell

namespace Step

variable (sh : Shell) (logJson verbose quiet : Bool)

theorem isTimed_play (step : Step) {s : Session} (h : s.IsTimed) :
    (step.play sh s).session.IsTimed := by
  obtain ⟨moves, hgains, -⟩ := play_scoped sh step s
  exact hgains.isTimed h

mutual

theorem play_logging : ∀ (step : Step) (s : Session), s.IsTimed →
    step.play (sh.logging logJson verbose quiet) s = step.play sh s
  | .run words, s, h => by
      have hrun := (sh.related_logging logJson verbose quiet).run words
      rw [play, play, Shell.ofAct_logging hrun h]
  | .capture words, s, h => by
      have hcapture := (sh.related_logging logJson verbose quiet).capture words
      rw [play, play, Shell.ofAct_logging hcapture h]
  | .cd path body, s, h => by
      have htarget : (sh.logging logJson verbose quiet).target path = sh.target path := rfl
      rw [play, play, htarget]
      cases hdir : sh.directory s.cwd path with
      | error fault => rw [sh.run_target_of_error s hdir]
      | ok dir =>
          rw [sh.run_target_of_ok s hdir]
          dsimp only
          rw [playAll_logging body ((s.logged (Shell.enterEvent dir)).enter dir) h]
  | .attempt body, s, h => by
      rw [play, play, playAll_logging body s h]

/-- The settings of the log have no part in what steps come to. -/
theorem playAll_logging : ∀ (steps : List Step) (s : Session), s.IsTimed →
    playAll (sh.logging logJson verbose quiet) steps s = playAll sh steps s
  | [], s, h => rfl
  | step :: steps, s, h => by
      rw [playAll, playAll, play_logging step s h]
      dsimp only
      rw [playAll_logging steps _ (isTimed_play sh step h)]

end

end Step

/-! ## Events -/

namespace Shell

/-- The events that a shell notes. -/
inductive Logs : Event → Prop where
  /-- A directory is entered. -/
  | entered (dir : Path) : Logs (enterEvent dir)
  /-- A command is not started in a dry run. -/
  | dry (argv : List Text) (cwd : Path) : Logs (dryEvent argv cwd)
  /-- A command ended. -/
  | ran (argv : List Text) (cwd : Path) (r : Result) : Logs (Machine.runEvent argv cwd r)
  /-- A command had output. -/
  | output (argv : List Text) (r : Result) : Logs (Machine.outputEvent argv r)
  /-- The book is not uploaded. -/
  | skipped : Logs skipEvent
  /-- A stage is done. -/
  | done (record : StageRecord) : Logs record.event

end Shell

/-- The levels of events. -/
def Event.levels : List Text := ["debug", "info", "warning", "error"]

theorem Shell.Logs.level_mem {e : Event} (h : Logs e) : e.level ∈ Event.levels := by
  have hdebug : ("debug" : Text) ∈ Event.levels := by decide
  have hinfo : ("info" : Text) ∈ Event.levels := by decide
  cases h with
  | entered | output => exact hdebug
  | dry | done => exact hinfo
  | skipped => decide
  | ran argv cwd r =>
      have hlevel : (Machine.runEvent argv cwd r).level =
          if r.code = 0 then ("info" : Text) else ("error" : Text) := by
        unfold Machine.runEvent
        split <;> rfl
      rw [hlevel]
      split
      · exact hinfo
      · decide

namespace Deed

/-- What a deed logs is noted by a shell. -/
theorem logs {sh : Shell} {d : Deed} {e : Event} (he : e ∈ d.events sh) : Shell.Logs e := by
  unfold events at he
  split at he
  · split at he
    · cases List.mem_singleton.1 he
      exact .dry _ _
    · cases he
  · unfold Machine.eventsFor at he
    split at he
    · rcases List.mem_cons.1 he with rfl | he
      · exact .ran _ _ _
      · split at he
        · cases List.mem_singleton.1 he
          exact .output _ _
        · cases he
    · cases he

end Deed

/-- All events that a shell notes can be read. -/
theorem Shell.Logs.isReadable {e : Event} (h : Logs e) : e.IsReadable fun _ => True := by
  cases h with
  | entered dir => exact isReadable_enterEvent dir
  | dry argv cwd => exact isReadable_dryEvent argv cwd
  | ran argv cwd r => exact Executed.isReadable_event ⟨argv, cwd, r.code, r.millis⟩
  | output argv r => exact isReadable_outputEvent argv r
  | skipped =>
      refine Event.isReadable_of_names ["message"] rfl (by decide) ?_
      simpa [skipEvent] using .text trivial
  | done record =>
      refine Event.isReadable_of_names ["status"] rfl (by decide) ?_
      simpa [StageRecord.event] using .text trivial

/-- All events of a session so far are of a kind. -/
def Session.Noted (p : Event → Prop) (s : Session) : Prop := ∀ e ∈ s.machine.events, p e

/-- The levels of all events so far are known. -/
def Session.Leveled (s : Session) : Prop := s.Noted fun e => e.level ∈ Event.levels

theorem Session.Gains.noted {sh : Shell} {s s' : Session} {moves : List Move} {p : Event → Prop}
    (h : s.Gains sh moves s') (hs : s.Noted p) (hdeeds : ∀ e, Shell.Logs e → p e)
    (hnoted : ∀ e, .noted e ∈ moves → p e) : s'.Noted p := by
  intro e he
  rw [h.events] at he
  rcases List.mem_append.1 he with he | he
  · exact hs e he
  · obtain ⟨move, hmove, he⟩ := List.mem_flatMap.1 he
    cases move with
    | did d => exact hdeeds e (Deed.logs he)
    | noted e' =>
        cases List.mem_singleton.1 he
        exact hnoted e hmove

/-- An act makes moves of a shell, and the events that it notes besides are of a kind. -/
def Act.Adds (sh : Shell) (p : Event → Prop) {α : Type} (act : Act α) : Prop :=
  ∀ s : Session, act.Makes sh s fun moves _ => ∀ e, .noted e ∈ moves → p e

namespace Shell

variable (sh : Shell) {p : Event → Prop}

theorem adds_isClosed : Act.IsClosed fun act _ => act.Adds sh p where
  pure _ _ := .pure (by simp)
  throw _ _ := .throw (by simp)
  get s := ⟨[], .refl s, by simp⟩
  bind := by
    intro α β act act' f f' h hf s
    refine (h s).bind (fun _ _ hmoves => hmoves) fun moves a s₁ hmoves _ => ?_
    refine (hf a s₁).mono fun later _ hlater e he => ?_
    exact (List.mem_append.1 he).elim (hmoves e) (hlater e)
  within := by
    intro α body body' target h s
    obtain ⟨moves, hgains, hmoves⟩ := h (s.enter target)
    refine ⟨moves, ?_⟩
    rw [run_within]
    exact ⟨hgains.leave, hmoves⟩

theorem adds_log {e : Event} (he : p e) : (log e).Adds sh p := fun s =>
  (log_makes sh s e).mono fun moves _ hlog e' he' => by
    rw [hlog.1, List.mem_singleton] at he'
    cases he'
    exact he

/-- The acts of a shell make moves, with events of a kind that its own events are of. -/
theorem related_adds (hentered : ∀ dir, p (enterEvent dir)) (hskipped : p skipEvent) :
    Related (fun act _ => act.Adds sh p) sh sh where
  toIsClosed := sh.adds_isClosed
  words words capture s := (sh.executeWords_makes s words capture).mono <| by
    rintro moves - ⟨answer, rfl, -⟩
    simp
  target path s := by
    cases hdir : sh.directory s.cwd path with
    | error fault =>
        refine ⟨[], ?_⟩
        rw [sh.run_target_of_error s hdir]
        exact ⟨.refl s, by simp⟩
    | ok dir =>
        refine ⟨[.noted (enterEvent dir)], ?_⟩
        rw [sh.run_target_of_ok s hdir]
        refine ⟨.logged s _, fun e he => ?_⟩
        cases List.mem_singleton.1 he
        exact hentered dir
  skipped := sh.adds_log hskipped
  ci := rfl
  refName := rfl

/-- The pipeline makes moves of its shell, with events of a kind that the events of a shell are
of. -/
theorem runBook_adds (hp : ∀ e, Logs e → p e) (c : Settings) : (sh.runBook c).Adds sh p :=
  (sh.related_adds (fun dir => hp _ (.entered dir)) (hp _ .skipped)).runBook
    (fun record => sh.adds_log (hp _ (.done record))) c

/-- All events of the pipeline are those of a shell. -/
theorem runBook_noted (hp : ∀ e, Logs e → p e) (c : Settings) {s : Session} (hs : s.Noted p) :
    ((sh.runBook c).run s).2.Noted p := by
  obtain ⟨moves, hgains, hmoves⟩ := sh.runBook_adds hp c s
  exact hgains.noted hs hp hmoves

/-- All events of steps are those of a shell. -/
theorem playAll_noted (hp : ∀ e, Logs e → p e) (steps : List Step) {s : Session} (hs : s.Noted p) :
    (Step.playAll sh steps s).session.Noted p := by
  obtain ⟨moves, hgains, hdoes⟩ := Step.playAll_scoped sh steps s
  refine hgains.noted hs hp fun e he => ?_
  obtain ⟨dir, rfl⟩ := hdoes.eq_enterEvent he
  exact hp _ (.entered dir)

end Shell
end Bindery
