import Bindery.Proofs.CommandLine.Narration

/-!
# The settings of the log

The format of the log and the two switches for more and for less of it decide what is written
to the standard error, and nothing else.  A run notes its events one after the other, and the
settings pick those that are written.  So runs that differ in the settings only go the same
way, note the same events and fail for the same reason (`run_logging`).

What is written is read back: a line for each event that is picked, and the message of the
failure under all settings (`Narrates`).
-/

namespace Bindery.CommandLine

variable {s : Surroundings} {r r' : Request} {argv argv' : List Text}

/-! ## What is written -/

/-- The event is a warning or an error. -/
def isSevere (e : Event) : Bool := e.level == "warning" || e.level == "error"

/-- The event is for debugging. -/
def isDebug (e : Event) : Bool := e.level == "debug"

/-- Quiet runs write the warnings and errors of what other runs write. -/
theorem filter_isShown_quiet {events : List Event} (h : ∀ e ∈ events, e.level ∈ Event.levels)
    {ctx ctx' : Context} (hverbose : ctx.verbose = false) (hquiet : ctx.quiet = false)
    (hquiet' : ctx'.quiet = true) :
    events.filter (Event.isShown ctx') = (events.filter (Event.isShown ctx)).filter isSevere := by
  rw [List.filter_filter]
  refine List.filter_congr fun e he => ?_
  have hlevel := h e he
  simp only [Event.levels, List.mem_cons, List.not_mem_nil, or_false] at hlevel
  rcases hlevel with hlevel | hlevel | hlevel | hlevel <;>
    simp only [Event.isShown, isSevere, hlevel, hverbose, hquiet, hquiet'] <;>
    cases ctx'.verbose <;> decide

/-- Without a switch a run writes what a verbose one writes, but for debugging. -/
theorem filter_isShown_verbose (events : List Event) {ctx ctx' : Context}
    (hverbose : ctx.verbose = false) (hquiet : ctx.quiet = false) (hverbose' : ctx'.verbose = true)
    (hquiet' : ctx'.quiet = false) :
    events.filter (Event.isShown ctx) =
      (events.filter (Event.isShown ctx')).filter fun e => !isDebug e := by
  rw [List.filter_filter]
  refine List.filter_congr fun e _ => ?_
  simp [Event.isShown, isDebug, hverbose, hquiet, hverbose', hquiet']

/-! ## Requests with other settings -/

/-- Two requests that differ at most in the settings of the log. -/
structure SameButLog (r r' : Request) : Prop where
  config : r'.config = r.config
  runId : r'.runId = r.runId
  task : r'.task = r.task

namespace SameButLog

theorem context (h : SameButLog r r') (s : Surroundings) :
    context s r' = (context s r).logging (context s r').logJson r'.verbose r'.quiet := by
  have hoptions : r'.options =
      { r.options with format := r'.format, verbose := r'.verbose, quiet := r'.quiet } := by
    simp only [Request.options, h.runId, h.task]
  simp only [CommandLine.context, hoptions]
  rfl

theorem loaded (h : SameButLog r r') (s : Surroundings) : loaded s r' = loaded s r := by
  rw [CommandLine.loaded, CommandLine.loaded, h.config, h.context s]
  rfl

end SameButLog

theorem runPipeline_logging (s : Surroundings) (ctx : Context) (c : Config) {m : Machine}
    (hm : Machine.IsTimed m.readings) (logJson verbose quiet : Bool) :
    runPipeline s (ctx.logging logJson verbose quiet) c m = runPipeline s ctx c m := by
  have hshell : (⟨s.world, ctx.logging logJson verbose quiet, .number c.timeoutSeconds⟩ : Shell) =
      (Shell.mk s.world ctx (.number c.timeoutSeconds)).logging logJson verbose quiet := rfl
  have hopen (sh : Shell) : (sh.logging logJson verbose quiet).openAt none m = sh.openAt none m :=
    rfl
  simp only [runPipeline]
  rw [hshell, hopen]
  cases hsession : (Shell.mk s.world ctx (.number c.timeoutSeconds)).openAt none m with
  | error fault => rfl
  | ok session =>
      have htimed : session.IsTimed := by
        rw [Shell.eq_of_openAt hsession]
        exact hm
      simp only [Shell.runBook_logging _ logJson verbose quiet htimed]

theorem perform_logging (s : Surroundings) (ctx : Context) (c : Config) (path : Option Path)
    (task : Task) {m : Machine} (hm : Machine.IsTimed m.readings) (logJson verbose quiet : Bool) :
    perform s (ctx.logging logJson verbose quiet) c path task m = perform s ctx c path task m := by
  have hpipeline := runPipeline_logging s ctx c hm logJson verbose quiet
  cases task with
  | uploadPath | config => rfl
  | run | plan =>
      simp only [perform, hpipeline]
      rfl

/-- If the time of every command can be written, the settings of the log have no part in what
a request comes to. -/
theorem SameButLog.follow (h : SameButLog r r') (htimed : Machine.IsTimed (machine s).readings) :
    follow s (CommandLine.context s r') r' = follow s (CommandLine.context s r) r := by
  cases hload : CommandLine.loaded s r with
  | error fault => rw [follow_of_fault hload, follow_of_fault ((h.loaded s).trans hload)]
  | ok found =>
      obtain ⟨c, path⟩ := found
      have hload' := (h.loaded s).trans hload
      cases hversion : pinnedVersion r.task.compatVersion with
      | error failure =>
          have hversion' : pinnedVersion r'.task.compatVersion = .error failure :=
            h.task.symm ▸ hversion
          rw [follow_of_version hload hversion, follow_of_version hload' hversion']
      | ok version =>
          have hversion' : pinnedVersion r'.task.compatVersion = .ok version :=
            h.task.symm ▸ hversion
          have hstarted : started s r' path = started s r path := by
            rw [started, started, h.context s, h.task]
            rfl
          rw [follow_of_loaded hload hversion, follow_of_loaded hload' hversion', hstarted, h.task,
            h.context s]
          have htimed' : Machine.IsTimed (started s r path).readings := htimed
          exact perform_logging s _ _ path r.task htimed' _ _ _

/-! ## Runs with other settings -/

/-- Two runs go the same way, whatever the settings of their logs are. -/
structure SameCourse (s : Surroundings) (r r' : Request) (o o' : Outcome) : Prop where
  exit : o'.exit = o.exit
  stdout : o'.stdout = o.stdout
  commands : o'.commands = o.commands
  /-- The same events are noted. -/
  noted : noted s r' = noted s r
  /-- The failure that is reported is the same. -/
  failure : failure? s r' = failure? s r
  /-- If one run is quiet and the other has no switch, the quiet one shows the warnings and
  errors that the other one shows. -/
  quiet : r.verbose = false → r.quiet = false → r'.quiet = true →
    shown s r' = (shown s r).filter isSevere
  /-- If one run is verbose and the other has no switch, the other one shows all that the
  verbose one shows, but for debugging. -/
  verbose : r.verbose = false → r.quiet = false → r'.verbose = true → r'.quiet = false →
    shown s r = (shown s r').filter fun e => !isDebug e

theorem SameButLog.sameCourse (h : SameButLog r r')
    (htimed : Machine.IsTimed (machine s).readings) (hparse : Request.parse argv = .ok r)
    (hparse' : Request.parse argv' = .ok r') :
    SameCourse s r r' (run s argv) (run s argv') := by
  have hfollow : CommandLine.follow s (CommandLine.context s r') r' =
      CommandLine.follow s (CommandLine.context s r) r := h.follow htimed
  have hnoted : noted s r' = noted s r := by rw [noted, noted, hfollow]
  have hlevels : ∀ e ∈ noted s r, e.level ∈ Event.levels := fun e he =>
    (noted_logs s r e he).level_mem
  have hfields : (run s argv').exit = (run s argv).exit ∧
      (run s argv').stdout = (run s argv).stdout ∧
      (run s argv').commands = (run s argv).commands := by
    rw [run_of_parse hparse, run_of_parse hparse', hfollow]
    exact ⟨rfl, rfl, rfl⟩
  obtain ⟨hexit, hstdout, hcommands⟩ := hfields
  refine ⟨hexit, hstdout, hcommands, hnoted, by rw [failure?, failure?, hfollow], ?_, ?_⟩
  · intro hverbose hquiet hquiet'
    rw [shown, hnoted]
    exact filter_isShown_quiet hlevels hverbose hquiet hquiet'
  · intro hverbose hquiet hverbose' hquiet'
    rw [shown, shown, hnoted]
    exact filter_isShown_verbose _ hverbose hquiet hverbose' hquiet'

/-- The settings of the log decide what is written, and nothing else.

If the time of every command can be written, as it can with every clock whose readings are
binary numbers, two command lines that differ in the settings of the log only go the same way,
and so do all steps and all pipelines of two shells.  The events are noted under all settings,
all of them with a known level.  A quiet log has the warnings and errors of a log without
switches, and this one has all of a verbose log but the events for debugging.  Every event of a
log has its line, and the message of a failure is written in any case. -/
theorem run_logging :
    (∀ (s : Surroundings) (r r' : Request) (argv argv' : List Text), SameButLog r r' →
        Machine.IsTimed (machine s).readings → Request.parse argv = .ok r →
        Request.parse argv' = .ok r' →
        SameCourse s r r' (run s argv) (run s argv') ∧ Narrates s r (run s argv) ∧
          Narrates s r' (run s argv')) ∧
    (∀ (sh : Shell) (logJson verbose quiet : Bool) (start : Option Path) (m : Machine),
        (sh.logging logJson verbose quiet).openAt start m = sh.openAt start m) ∧
    (∀ (sh : Shell) (logJson verbose quiet : Bool) (steps : List Step) (session : Session),
        session.IsTimed → Step.playAll (sh.logging logJson verbose quiet) steps session =
          Step.playAll sh steps session) ∧
    (∀ (sh : Shell) (logJson verbose quiet : Bool) (c : Settings) (session : Session),
        session.IsTimed →
        ((sh.logging logJson verbose quiet).runBook c).run session = (sh.runBook c).run session ∧
        ∀ stages, ((sh.logging logJson verbose quiet).performAll c stages).run session =
          (sh.performAll c stages).run session) ∧
    (∀ (sh : Shell) (steps : List Step) (c : Settings) (session : Session),
        session.Leveled → (Step.playAll sh steps session).session.Leveled ∧
          ((sh.runBook c).run session).2.Leveled) ∧
    (∀ (ctx ctx' : Context) (events : List Event), (∀ e ∈ events, e.level ∈ Event.levels) →
        ctx.verbose = false → ctx.quiet = false →
        (ctx'.quiet = true → events.filter (Event.isShown ctx') =
          (events.filter (Event.isShown ctx)).filter isSevere) ∧
        (ctx'.verbose = true → ctx'.quiet = false → events.filter (Event.isShown ctx) =
          (events.filter (Event.isShown ctx')).filter fun e => !isDebug e)) ∧
    (∀ readings : List Number, (∀ reading ∈ readings, ∃ x, reading = .float x) →
        Machine.IsTimed readings) := by
  refine ⟨?_, ?_, ?_, ?_, ?_, ?_, ?_⟩
  · intro s r r' argv argv' h htimed hparse hparse'
    exact ⟨h.sameCourse htimed hparse hparse', run_narrates hparse, run_narrates hparse'⟩
  · intro sh logJson verbose quiet start m
    rfl
  · intro sh logJson verbose quiet steps session htimed
    exact Step.playAll_logging sh logJson verbose quiet steps session htimed
  · intro sh logJson verbose quiet c session htimed
    exact ⟨sh.runBook_logging logJson verbose quiet htimed c,
      sh.performAll_logging logJson verbose quiet htimed c⟩
  · intro sh steps c session hlevels
    have hlevel : ∀ e, Shell.Logs e → e.level ∈ Event.levels := fun e he => he.level_mem
    exact ⟨sh.playAll_noted hlevel steps hlevels, sh.runBook_noted hlevel c hlevels⟩
  · intro ctx ctx' events hlevels hverbose hquiet
    exact ⟨filter_isShown_quiet hlevels hverbose hquiet,
      filter_isShown_verbose events hverbose hquiet⟩
  · intro readings hbinary
    exact Machine.isTimed_of_binary hbinary

/-- A repository where the upload fails, and a clock of binary numbers. -/
def lateFailure : Surroundings :=
  { sampleSurroundings "/usr/local" fun argv => if argv.head? = some "gsutil" then 1 else 0 with
    devices := ([.float 0.5, .float 2.25] : List Number) }

/-- A run that fails with its upload, loud and quiet, and its shell with steps and stages. -/
theorem run_logging_of_lateFailure :
    let quietRun : Request := { plainRun with quiet := true, format := some "text" }
    let sh := shellOf lateFailure plainRun {}
    let session : Session := { cwd := .ofNames ["srv", "book"], machine := machine lateFailure }
    let steps : List Step := [.cd (.parse "docs") [.run [.text "true"]], .capture [.text "gsutil"]]
    SameCourse lateFailure plainRun quietRun (run lateFailure ["run"])
      (run lateFailure ["--format", "text", "--quiet", "run"]) ∧
    Narrates lateFailure plainRun (run lateFailure ["run"]) ∧
    Narrates lateFailure quietRun (run lateFailure ["--format", "text", "--quiet", "run"]) ∧
    (run lateFailure ["run"]).exit = exitCommand ∧
    Step.playAll (sh.logging true true false) steps session = Step.playAll sh steps session ∧
    ((sh.logging false true true).runBook (.ofConfig {})).run session =
      (sh.runBook (.ofConfig {})).run session ∧
    (Step.playAll sh steps session).session.Leveled ∧
    (noted lateFailure plainRun).filter (Event.isShown (context lateFailure quietRun)) =
      ((noted lateFailure plainRun).filter
        (Event.isShown (context lateFailure plainRun))).filter isSevere := by
  intro quietRun sh session steps
  have hsame : SameButLog plainRun quietRun := ⟨rfl, rfl, rfl⟩
  have hparse : Request.parse ["run"] = .ok plainRun := rfl
  have hquiet : Request.parse ["--format", "text", "--quiet", "run"] = .ok quietRun := by
    decide +kernel
  have hlevels : ∀ e ∈ noted lateFailure plainRun, e.level ∈ Event.levels := fun e he =>
    (noted_logs lateFailure plainRun e he).level_mem
  have hbinary : ∀ reading ∈ (machine lateFailure).readings, ∃ x, reading = .float x := by
    intro reading hreading
    have hmem : reading ∈ [Number.float 0.5, .float 2.25] := hreading
    simp only [List.mem_cons, List.not_mem_nil, or_false] at hmem
    rcases hmem with rfl | rfl <;> exact ⟨_, rfl⟩
  have htimed : session.IsTimed := run_logging.2.2.2.2.2.2 _ hbinary
  obtain ⟨hcourse, hplainTold, hquietTold⟩ :=
    run_logging.1 lateFailure plainRun quietRun _ _ hsame htimed hparse hquiet
  refine ⟨hcourse, hplainTold, hquietTold, by decide +kernel, ?_, ?_, ?_, ?_⟩
  · exact run_logging.2.2.1 sh true true false steps session htimed
  · exact (run_logging.2.2.2.1 sh false true true (.ofConfig {}) session htimed).1
  · exact (run_logging.2.2.2.2.1 sh steps (.ofConfig {}) session (by
      intro e he
      cases he)).1
  · exact (run_logging.2.2.2.2.2.1 _ _ _ hlevels rfl rfl).1 rfl

end Bindery.CommandLine
