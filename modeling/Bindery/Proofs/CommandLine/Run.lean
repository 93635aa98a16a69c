import Bindery.CommandLine.Run
import Bindery.Proofs.Log.Lines
import Bindery.Proofs.Pipeline.Plan

/-!
# What a request comes to

The equations of `CommandLine.run`, by how far a request gets: its configuration is not
loaded (`follow_of_fault`), its version of the dependency cannot be used
(`follow_of_version`), or its task is done (`follow_of_loaded`).  `follow_cases` says that this
is all.  `runPipeline_cases` says what a task that runs the pipeline comes to.

The rows of a task that is done are printed if the output has a code for all of them
(`outcome_of_takes`).  Rows of JSON always have one (`takes_result`).  Otherwise the run fails with
the first row that has none, and the rows in front of it stay (`exists_refused`).
-/

namespace Bindery.CommandLine

variable {s : Surroundings} {ctx : Context} {r : Request} {c : Config} {path : Option Path}

/-! ## Parts of a run -/

/-- The configuration of a request with the path of its file, or why it is not loaded. -/
def loaded (s : Surroundings) (r : Request) : Except Config.LoadFault (Config × Option Path) :=
  Config.load s.world.files s.world.current (context s r).root r.config s.environment.configPath

/-- The machine before anything is done. -/
def machine (s : Surroundings) : Machine := { clock := s.devices.clock }

/-- The machine when a task starts. -/
def started (s : Surroundings) (r : Request) (path : Option Path) : Machine :=
  (machine s).logged (startEvent (context s r) path r.task)

@[simp] theorem started_commands : (started s r path).commands = [] := rfl

/-- The shell of a request with a configuration. -/
def shellOf (s : Surroundings) (r : Request) (c : Config) : Shell :=
  ⟨s.world, context s r, .number c.timeoutSeconds⟩

theorem run_of_parse {argv : List Text} (h : Request.parse argv = .ok r) :
    run s argv = outcome s (context s r) (follow s (context s r) r) := by
  rw [run, h]

/-! ## Printed rows -/

/-- The output has a code for all rows. -/
def Output.takes (out : Output) (rows : List Text) : Bool :=
  rows.all fun row => (out.fault? row).isNone

@[simp] theorem Output.takes_nil (out : Output) : out.takes [] = true := rfl

@[simp] theorem Output.takes_memory (rows : List Text) : Output.memory.takes rows = true := by
  simp [takes, memory]

/-- A result is in ASCII, which every output takes. -/
@[simp] theorem takes_result (out : Output) (layout : Json.Layout) (ctx : Context)
    (members : List (Text × Json)) : out.takes [result layout ctx members] = true := by
  have hnone := out.ascii _ (Json.isAscii_render layout (.object (base ctx ++ members)))
  simp [Output.takes, result, hnone]

theorem Output.print_of_takes {out : Output} {rows : List Text} (h : out.takes rows = true) :
    out.print rows = (Text.ofLines rows, none) := by
  induction rows with
  | nil => rfl
  | cons row rows ih =>
      rw [takes, List.all_cons, Bool.and_eq_true, Option.isNone_iff_eq_none] at h
      rw [print, h.1, ih h.2]
      rfl

/-- Rows that the output does not take are printed up to the first one that has no code. -/
theorem Output.exists_print {out : Output} {rows : List Text} (h : out.takes rows = false) :
    ∃ front row back fault, rows = front ++ row :: back ∧ out.takes front = true ∧
      out.fault? row = some fault ∧ out.print rows = (Text.ofLines front, some fault) := by
  induction rows with
  | nil => cases h
  | cons row rows ih =>
      cases hrow : out.fault? row with
      | some fault => exact ⟨[], row, rows, fault, rfl, rfl, hrow, by rw [print, hrow]; rfl⟩
      | none =>
          rw [takes, List.all_cons, hrow, Option.isNone_none, Bool.true_and] at h
          obtain ⟨front, next, back, fault, rfl, hfront, hnext, hprint⟩ := ih h
          refine ⟨row :: front, next, back, fault, rfl, ?_, hnext, ?_⟩
          · rw [takes, List.all_cons, hrow, Option.isNone_none, Bool.true_and]
            exact hfront
          · rw [print, hrow, hprint]
            rfl

theorem report_ne_nil (ctx : Context) (failure : Failure) : report ctx failure ≠ [] :=
  List.append_ne_nil_of_right_ne_nil _ (by decide)

theorem outcome_of_error (s : Surroundings) (ctx : Context) (failure : Failure) (m : Machine) :
    outcome s ctx (.error failure, m) =
      ⟨failure.code, [], log s.now ctx m.events ++ report ctx failure, m.commands⟩ := rfl

theorem outcome_of_takes {rows : List Text} (h : s.devices.output.takes rows = true)
    (ctx : Context) (m : Machine) :
    outcome s ctx (.ok rows, m) =
      ⟨exitOk, Text.ofLines rows, log s.now ctx m.events, m.commands⟩ := by
  rw [outcome, deliver, Output.print_of_takes h]
  simp

/-- A row without a code is a fault that the program does not expect. -/
theorem exists_refused {rows : List Text} (h : s.devices.output.takes rows = false)
    (ctx : Context) (m : Machine) :
    ∃ front row back fault, rows = front ++ row :: back ∧ s.devices.output.takes front = true ∧
      s.devices.output.fault? row = some fault ∧ outcome s ctx (.ok rows, m) =
        ⟨exitInternal, Text.ofLines front, log s.now ctx m.events ++ report ctx (internal fault),
          m.commands⟩ := by
  obtain ⟨front, row, back, fault, hrows, hfront, hrow, hprint⟩ := Output.exists_print h
  refine ⟨front, row, back, fault, hrows, hfront, hrow, ?_⟩
  rw [outcome, deliver, hprint]
  rfl

/-- One row is printed if the output has a code for it, and else nothing is. -/
theorem outcome_of_row (s : Surroundings) (ctx : Context) (row : Text) (m : Machine) :
    (s.devices.output.fault? row = none →
      (outcome s ctx (.ok [row], m)).exit = exitOk ∧
        (outcome s ctx (.ok [row], m)).stdout = row ++ "\n") ∧
    (s.devices.output.fault? row ≠ none →
      (outcome s ctx (.ok [row], m)).exit = exitInternal ∧
        (outcome s ctx (.ok [row], m)).stdout = []) := by
  cases hfault : s.devices.output.fault? row with
  | none =>
      refine ⟨fun _ => ?_, fun h => absurd rfl h⟩
      rw [outcome, deliver, Output.print, hfault]
      exact ⟨rfl, Text.ofLines_singleton row⟩
  | some fault =>
      refine ⟨fun h => absurd h (Option.some_ne_none fault), fun _ => ?_⟩
      rw [outcome, deliver, Output.print, hfault]
      exact ⟨rfl, rfl⟩

/-! ## Following a request -/

theorem follow_of_fault {fault : Config.LoadFault} (h : loaded s r = .error fault) :
    follow s (context s r) r = (.error (ofLoadFault fault), machine s) := by
  simp only [loaded] at h
  simp only [follow, h, machine]

theorem follow_of_version {failure : Failure} (h : loaded s r = .ok (c, path))
    (hversion : pinnedVersion r.task.compatVersion = .error failure) :
    follow s (context s r) r = (.error failure, machine s) := by
  simp only [loaded] at h
  simp only [follow, h, hversion, machine]

theorem follow_of_loaded {version : Option Text} (h : loaded s r = .ok (c, path))
    (hversion : pinnedVersion r.task.compatVersion = .ok version) :
    follow s (context s r) r =
      perform s (context s r) (c.withCompatVersion version) path r.task (started s r path) := by
  simp only [loaded] at h
  simp only [follow, h, hversion, machine, started]

/-- What following a request comes to. -/
theorem follow_cases (s : Surroundings) (r : Request) :
    (∃ fault, loaded s r = .error fault ∧
      follow s (context s r) r = (.error (ofLoadFault fault), machine s)) ∨
    (∃ failure, pinnedVersion r.task.compatVersion = .error failure ∧
      follow s (context s r) r = (.error failure, machine s)) ∨
    ∃ c path version, loaded s r = .ok (c, path) ∧
      pinnedVersion r.task.compatVersion = .ok version ∧
      follow s (context s r) r =
        perform s (context s r) (c.withCompatVersion version) path r.task (started s r path) := by
  cases hload : loaded s r with
  | error fault => exact .inl ⟨fault, rfl, follow_of_fault hload⟩
  | ok found =>
      obtain ⟨c, path⟩ := found
      cases hversion : pinnedVersion r.task.compatVersion with
      | error failure => exact .inr (.inl ⟨failure, rfl, follow_of_version hload hversion⟩)
      | ok version =>
          exact .inr (.inr ⟨c, path, version, rfl, rfl, follow_of_loaded hload hversion⟩)

/-! ## Running the pipeline -/

/-- What the pipeline comes to in the root of the repository. -/
def bookOutcome (sh : Shell) (c : Config) (m : Machine) : Except Shell.Fault (List StageRecord) :=
  match sh.openAt none m with
  | .error fault => .error (.unresolved fault)
  | .ok session => ((sh.runBook (.ofConfig c)).run session).1

/-- The history that the pipeline leaves. -/
def bookHistory (sh : Shell) (c : Config) (m : Machine) : List Executed :=
  match sh.openAt none m with
  | .error _ => []
  | .ok session => ((sh.runBook (.ofConfig c)).run session).2.history

/-- The machine that the pipeline leaves. -/
def bookMachine (sh : Shell) (c : Config) (m : Machine) : Machine :=
  match sh.openAt none m with
  | .error _ => m
  | .ok session => ((sh.runBook (.ofConfig c)).run session).2.machine

theorem bookMachine_commands_of_dry {sh : Shell} (dry : sh.context.dryRun = true) (c : Config)
    (m : Machine) : (bookMachine sh c m).commands = m.commands := by
  unfold bookMachine
  cases hopen : sh.openAt none m with
  | error fault => rfl
  | ok session =>
      obtain ⟨ran, commands, hext, hcourse, -⟩ := sh.runBook_follows (c := c) session
      have hmachine : session.machine = m := by rw [Shell.eq_of_openAt hopen]
      rw [hext.commands, hcourse.commands_of_dry dry, List.append_nil, hmachine]

theorem bookOutcome_ne_commandFailed_of_dry {sh : Shell} (dry : sh.context.dryRun = true)
    (c : Config) (m : Machine) (f : CommandFailure) :
    bookOutcome sh c m ≠ .error (.commandFailed f) := by
  unfold bookOutcome
  cases hopen : sh.openAt none m with
  | error fault => simp
  | ok session =>
      obtain ⟨ran, commands, -, hcourse, -⟩ := sh.runBook_follows (c := c) session
      intro (hfailed : ((sh.runBook (.ofConfig c)).run session).1 = _)
      rw [hfailed] at hcourse
      exact Shell.Course.not_commandFailed_of_dry dry hcourse

theorem runPipeline_of_returns {records : List StageRecord} {session session' : Session}
    {m : Machine} (h : (shellOf s r c).Returns c none m session records session') :
    runPipeline s (context s r) c m = (.ok (records, session'), session'.machine) := by
  obtain ⟨hopen, hbook⟩ := h
  simp only [shellOf] at hopen hbook
  simp only [runPipeline, hopen, hbook]

theorem returns_of_bookOutcome {sh : Shell} {m : Machine} {records : List StageRecord}
    (h : bookOutcome sh c m = .ok records) :
    ∃ session session', sh.Returns c none m session records session' := by
  unfold bookOutcome at h
  cases hopen : sh.openAt none m with
  | error fault =>
      rw [hopen] at h
      cases h
  | ok session =>
      rw [hopen] at h
      exact ⟨session, ((sh.runBook (.ofConfig c)).run session).2, hopen, Prod.ext h rfl⟩

/-- What running the pipeline comes to. -/
theorem runPipeline_cases (s : Surroundings) (r : Request) (c : Config) (m : Machine) :
    (∃ records session session', (shellOf s r c).Returns c none m session records session' ∧
      runPipeline s (context s r) c m = (.ok (records, session'), session'.machine)) ∨
    (∃ fault, bookOutcome (shellOf s r c) c m = .error fault ∧
      runPipeline s (context s r) c m =
        (.error (ofShellFault fault), bookMachine (shellOf s r c) c m)) := by
  cases hopen : (shellOf s r c).openAt none m with
  | error fault =>
      refine .inr ⟨.unresolved fault, ?_, ?_⟩
      · rw [bookOutcome, hopen]
      · rw [bookMachine, hopen]
        simp only [shellOf] at hopen
        simp only [runPipeline, hopen]
  | ok session =>
      rcases hrun : ((shellOf s r c).runBook (.ofConfig c)).run session with
        ⟨fault | records, session'⟩
      · refine .inr ⟨fault, ?_, ?_⟩
        · simp only [bookOutcome, hopen, hrun]
        · simp only [bookMachine, hopen, hrun]
          simp only [shellOf] at hopen hrun
          simp only [runPipeline, hopen, hrun]
      · have h : (shellOf s r c).Returns c none m session records session' := ⟨hopen, hrun⟩
        exact .inl ⟨records, session, session', h, runPipeline_of_returns h⟩

/-- The task runs the pipeline, or prints what it would run. -/
def Task.isPipeline : Task → Bool
  | .run _ _ _ | .plan _ _ => true
  | .uploadPath _ _ | .config _ => false

theorem perform_of_isPipeline (h : r.task.isPipeline = true) (c : Config) (m : Machine) :
    perform s (context s r) c path r.task m =
      match runPipeline s (context s r) c m with
      | (.ok (records, session), m) =>
          (.ok (pipelineOutput (context s r) r.task records session), m)
      | (.error failure, m) => (.error failure, m) := by
  cases htask : r.task with
  | run | plan => rfl
  | uploadPath | config => simp [htask, Task.isPipeline] at h

/-! ## Runs with records -/

variable {argv : List Text} {version : Option Text}

section

variable {records : List StageRecord} {session session' : Session}
  (htask : r.task.isPipeline = true) (hload : loaded s r = .ok (c, path))
  (hversion : pinnedVersion r.task.compatVersion = .ok version)
  (hbook : (shellOf s r (c.withCompatVersion version)).Returns (c.withCompatVersion version) none
    (started s r path) session records session')

include htask hload hversion hbook

/-- What a request comes to whose pipeline has records. -/
theorem follow_of_returns : follow s (context s r) r =
    (.ok (pipelineOutput (context s r) r.task records session'), session'.machine) := by
  rw [follow_of_loaded hload hversion, perform_of_isPipeline htask, runPipeline_of_returns hbook]

/-- What a command line comes to whose pipeline has records. -/
theorem run_of_returns (h : Request.parse argv = .ok r) : run s argv = outcome s (context s r)
    (.ok (pipelineOutput (context s r) r.task records session'), session'.machine) := by
  rw [run_of_parse h, follow_of_returns htask hload hversion hbook]

end

/-- The commands that are started have nothing to do with what is printed. -/
@[simp] theorem outcome_commands (s : Surroundings) (ctx : Context)
    (answer : Except Failure (List Text) × Machine) :
    (outcome s ctx answer).commands = answer.2.commands := rfl

/-! ## A repository -/

/-- A repository under continuous integration, on a system where the package manager installs
in a directory. -/
def sampleSurroundings (base : String) (code : List Text → Int) : Surroundings where
  world := Shell.sampleWorld base code
  environment := ⟨[("CI", "true"), ("CI_COMMIT_REF_NAME", "v1")]⟩
  now :=
    { year := 2024, month := 1, day := 2, hour := 3, minute := 4, second := 5, micro := 6,
      zone := some 0 }
  devices := ([.int 0] : List Number)

/-- The request of the command line `run`. -/
def plainRun : Request := { task := .run false .absent false }

end Bindery.CommandLine
