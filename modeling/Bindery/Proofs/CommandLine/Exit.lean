import Bindery.Proofs.CommandLine.Run
import Bindery.Proofs.Pipeline.Codes
import Bindery.Proofs.Text.Blank
import Mathlib.Algebra.Group.Int.Defs

/-!
# Exit codes

`exitOf` decides the exit code of a request, one question after the other: how the
configuration is loaded, how the version of the dependency is given, and what the task comes
to.  `run_exit` says that this is the exit code of the run.  `run_exitMap` draws from it what
each exit code means, which requests start commands, and that the exit code of a failed
command does not matter.
-/

namespace Bindery.CommandLine

variable {s : Surroundings} {r : Request} {c : Config} {path : Option Path} {argv : List Text}

/-! ## Questions -/

/-- The version of the dependency is given and blank. -/
def VersionOption.isBlank : VersionOption → Bool
  | .version text => (Text.trim text).isEmpty
  | _ => false

/-- The configuration with the version of the dependency that is given. -/
def VersionOption.settle (c : Config) : VersionOption → Config
  | .version text => { c with compatVersion := text }
  | _ => c

/-- A ref is given, or else the environment names one. -/
def namesRef (s : Surroundings) (ref : Option Text) : Prop :=
  Text.trim (ref.getD []) ≠ [] ∨
    Text.trim ((s.environment.get? "CI_COMMIT_REF_NAME").getD []) ≠ []

instance (s : Surroundings) (ref : Option Text) : Decidable (namesRef s ref) :=
  inferInstanceAs (Decidable (_ ∨ _))

/-- What the pipeline comes to in the run of a request. -/
def bookOf (s : Surroundings) (r : Request) (c : Config) (path : Option Path) :
    Except Shell.Fault (List StageRecord) :=
  bookOutcome (shellOf s r c) c (started s r path)

/-- The rows of text that a task shows of a history. -/
def planRows : Task → List Executed → List Text
  | .plan _ false, history => history.map plannedRow
  | _, _ => []

/-- The standard output takes what a request shows of the history of the pipeline. -/
def isPrinted (s : Surroundings) (r : Request) (c : Config) (path : Option Path) : Bool :=
  s.devices.output.takes (planRows r.task (bookHistory (shellOf s r c) c (started s r path)))

/-- The exit code of what the pipeline comes to. -/
def exitOfBook (printed : Bool) : Except Shell.Fault (List StageRecord) → Int
  | .ok _ => if printed then exitOk else exitInternal
  | .error (.commandFailed _) => exitCommand
  | .error _ => exitInternal

/-- The exit code of a task that is done, with rows to print. -/
def exitOfRows (s : Surroundings) (rows : List Text) : Int :=
  if s.devices.output.takes rows then exitOk else exitInternal

/-- The exit code of the task of a request. -/
def exitOfTask (s : Surroundings) (r : Request) (c : Config) (path : Option Path) : Int :=
  match r.task with
  | .uploadPath ref json =>
      match uploadPath (context s r) c ref json with
      | .ok row => exitOfRows s [row]
      | .error _ => exitUsage
  | .config _ => if c.timeoutSeconds.isWritable then exitOk else exitInternal
  | _ => exitOfBook (isPrinted s r c path) (bookOf s r c path)

/-- The exit code of a request. -/
def exitOf (s : Surroundings) (r : Request) : Int :=
  match loaded s r with
  | .error (.config _) => exitConfig
  | .error _ => exitInternal
  | .ok (c, path) =>
      if r.task.compatVersion = .bare then exitInternal
      else if r.task.compatVersion.isBlank then exitUsage
      else exitOfTask s r (r.task.compatVersion.settle c) path

/-! ## Answers -/

theorem pinnedVersion_cases (v : VersionOption) :
    v = .bare ∧ pinnedVersion v = .error bareVersion ∨
    v ≠ .bare ∧ v.isBlank = true ∧ pinnedVersion v = .error blankVersion ∨
    v ≠ .bare ∧ v.isBlank = false ∧
      ∃ version, pinnedVersion v = .ok version ∧
        ∀ c : Config, c.withCompatVersion version = v.settle c := by
  cases v with
  | absent => exact .inr (.inr ⟨by simp, rfl, none, rfl, fun _ => rfl⟩)
  | bare => exact .inl ⟨rfl, rfl⟩
  | version text =>
      cases hblank : (Text.trim text).isEmpty with
      | true => exact .inr (.inl ⟨by simp, hblank, by simp [pinnedVersion, hblank]⟩)
      | false =>
          exact .inr (.inr ⟨by simp, hblank, some text, by simp [pinnedVersion, hblank],
            fun _ => rfl⟩)

theorem exitOfBook_error (printed : Bool) (fault : Shell.Fault) :
    exitOfBook printed (.error fault) = (ofShellFault fault).code := by
  cases fault <;> rfl

theorem exitOfBook_iff (printed : Bool) (book : Except Shell.Fault (List StageRecord)) :
    (exitOfBook printed book = exitOk ↔ (∃ records, book = .ok records) ∧ printed = true) ∧
    (exitOfBook printed book = exitCommand ↔ ∃ f, book = .error (.commandFailed f)) ∧
    (exitOfBook printed book = exitInternal ↔
      (∃ fault, book = .error fault ∧ ∀ f, fault ≠ .commandFailed f) ∨
        (∃ records, book = .ok records) ∧ printed = false) := by
  rcases book with fault | records
  · cases fault <;> simp [exitOfBook, exitOk, exitCommand, exitInternal]
  · cases printed <;> simp [exitOfBook, exitOk, exitCommand, exitInternal]

theorem exitOfTask_of_isPipeline (h : r.task.isPipeline = true) (c : Config) (path : Option Path) :
    exitOfTask s r c path = exitOfBook (isPrinted s r c path) (bookOf s r c path) := by
  cases htask : r.task with
  | run | plan => simp only [exitOfTask, htask]
  | uploadPath | config => simp [htask, Task.isPipeline] at h

/-- Only the rows of a plan as text may have no code. -/
theorem isPrinted_of_ne_plan (h : ∀ version, r.task ≠ .plan version false) (c : Config)
    (path : Option Path) : isPrinted s r c path = true := by
  have hrows : planRows r.task (bookHistory (shellOf s r c) c (started s r path)) = [] := by
    cases htask : r.task with
    | plan version json =>
        cases json with
        | false => exact absurd htask (h version)
        | true => rfl
    | run | uploadPath | config => rfl
  rw [isPrinted, hrows, Output.takes_nil]

theorem takes_pipelineOutput (out : Output) (ctx : Context) (task : Task)
    (records : List StageRecord) (session : Session) :
    out.takes (pipelineOutput ctx task records session) =
      out.takes (planRows task session.history) := by
  cases task with
  | plan version json => cases json <;> simp [pipelineOutput, planRows]
  | run dryRun version json => cases json <;> simp [pipelineOutput, planRows]
  | uploadPath | config => rfl

/-- Rows to print decide the exit code of a task that is done. -/
theorem outcome_exit_of_ok (s : Surroundings) (ctx : Context) (rows : List Text) (m : Machine) :
    (outcome s ctx (.ok rows, m)).exit = exitOfRows s rows := by
  unfold exitOfRows
  cases htakes : s.devices.output.takes rows with
  | true => rw [outcome_of_takes htakes, if_pos rfl]
  | false =>
      obtain ⟨front, row, back, fault, -, -, -, hrun⟩ := exists_refused htakes ctx m
      rw [hrun, if_neg Bool.false_ne_true]

/-- The ref that the environment names, without the white space around it. -/
theorem ref?_context (s : Surroundings) (r : Request) :
    (context s r).ref? =
      let ref := Text.trim ((s.environment.get? "CI_COMMIT_REF_NAME").getD [])
      if ref = [] then none else some ref := by
  simp only [context, Context.make, Context.ref?, Context.given, Environment.refName,
    List.isEmpty_iff]
  split
  · rfl
  · next hne => simp [hne]

/-- The place of a book is known if a ref is. -/
theorem uploadPath_cases (s : Surroundings) (r : Request) (c : Config) (ref : Option Text) :
    namesRef s ref ∧ (∃ name place, uploadPath (context s r) c ref false = .ok place ∧
      uploadPath (context s r) c ref true = .ok (result .line (context s r)
        [("ref", .text name), ("destination", .text place)])) ∨
    ¬namesRef s ref ∧ ∀ json, uploadPath (context s r) c ref json = .error noRef := by
  have hplace : ∀ name : Text, Text.trim name ≠ [] →
      ∃ place, c.destination? (Text.trim name) = some place := by
    intro name hname
    simp only [Config.destination?, Text.trim_trim, List.isEmpty_iff, hname, if_false]
    exact ⟨_, rfl⟩
  unfold uploadPath
  simp only [ref?_context, List.isEmpty_iff]
  by_cases hgiven : Text.trim (ref.getD []) = []
  · by_cases henv : Text.trim ((s.environment.get? "CI_COMMIT_REF_NAME").getD []) = []
    · right
      simp [namesRef, hgiven, henv]
    · left
      obtain ⟨place, hdestination⟩ := hplace _ henv
      simp only [namesRef, hgiven, henv, hdestination, if_true, if_false]
      exact ⟨.inr henv, _, _, rfl, rfl⟩
  · left
    obtain ⟨place, hdestination⟩ := hplace _ hgiven
    simp only [namesRef, hgiven, hdestination, if_false]
    exact ⟨.inl hgiven, _, _, rfl, rfl⟩

/-- What the pipeline comes to decides the exit code of a task that runs it. -/
theorem runPipeline_exit (s : Surroundings) (r : Request) (c : Config) (path : Option Path) :
    (∃ records session, runPipeline s (context s r) c (started s r path) =
        (.ok (records, session), session.machine) ∧
      bookOf s r c path = .ok records ∧
      session.history = bookHistory (shellOf s r c) c (started s r path) ∧
      session.machine = bookMachine (shellOf s r c) c (started s r path)) ∨
    (∃ fault, runPipeline s (context s r) c (started s r path) =
        (.error (ofShellFault fault), bookMachine (shellOf s r c) c (started s r path)) ∧
      bookOf s r c path = .error fault) := by
  rcases runPipeline_cases s r c (started s r path) with
    ⟨records, session, session', ⟨hopen, hrun⟩, hpipeline⟩ | ⟨fault, hbook, hpipeline⟩
  · refine .inl ⟨records, session', hpipeline, ?_, ?_, ?_⟩
    · simp only [bookOf, bookOutcome, hopen, hrun]
    · simp only [bookHistory, hopen, hrun]
    · simp only [bookMachine, hopen, hrun]
  · exact .inr ⟨fault, hpipeline, hbook⟩

theorem perform_exit (s : Surroundings) (r : Request) (c : Config) (path : Option Path) :
    (outcome s (context s r) (perform s (context s r) c path r.task (started s r path))).exit =
      exitOfTask s r c path := by
  cases hpipeline : r.task.isPipeline with
  | true =>
      rw [exitOfTask_of_isPipeline hpipeline, perform_of_isPipeline hpipeline]
      rcases runPipeline_exit s r c path with
        ⟨records, session, hrun, hok, hhistory, -⟩ | ⟨fault, hrun, herror⟩
      · rw [hrun, hok, isPrinted, ← hhistory, outcome_exit_of_ok, exitOfRows,
          takes_pipelineOutput]
        rfl
      · rw [hrun, herror, exitOfBook_error]
        rfl
  | false =>
      cases htask : r.task with
      | run | plan => simp [htask, Task.isPipeline] at hpipeline
      | uploadPath ref json =>
          simp only [exitOfTask, htask, perform]
          cases hplace : uploadPath (context s r) c ref json with
          | ok row => exact outcome_exit_of_ok s _ [row] _
          | error failure =>
              rcases uploadPath_cases s r c ref with ⟨-, name, place, htext, hjson⟩ | ⟨-, hnone⟩
              · cases json
                · cases htext.symm.trans hplace
                · cases hjson.symm.trans hplace
              · cases (hnone json).symm.trans hplace
                rfl
      | config json =>
          simp only [exitOfTask, htask, perform, configOutput]
          split
          · refine (outcome_exit_of_ok s _ [_] _).trans ?_
            rw [exitOfRows, takes_result, if_pos rfl]
          · rfl

theorem perform_commands (s : Surroundings) (r : Request) (c : Config) (path : Option Path) :
    (outcome s (context s r) (perform s (context s r) c path r.task (started s r path))).commands =
      if r.task.isPipeline then (bookMachine (shellOf s r c) c (started s r path)).commands
      else [] := by
  cases hpipeline : r.task.isPipeline with
  | true =>
      rw [perform_of_isPipeline hpipeline, if_pos rfl]
      rcases runPipeline_exit s r c path with
        ⟨records, session, hrun, -, -, hmachine⟩ | ⟨fault, hrun, -⟩
      · rw [hrun, ← hmachine]
        rfl
      · rw [hrun]
        rfl
  | false =>
      cases htask : r.task with
      | run | plan => simp [htask, Task.isPipeline] at hpipeline
      | uploadPath ref json =>
          simp only [perform, Bool.false_eq_true, if_false]
          cases uploadPath (context s r) c ref json <;> rfl
      | config json =>
          simp only [perform, Bool.false_eq_true, if_false]
          cases configOutput (context s r) c path json <;> rfl

/-- The exit code of a run. -/
theorem run_exit (h : Request.parse argv = .ok r) : (run s argv).exit = exitOf s r := by
  rw [run_of_parse h]
  cases hload : loaded s r with
  | error fault =>
      rw [follow_of_fault hload]
      simp only [exitOf, hload]
      cases fault <;> rfl
  | ok loaded =>
      obtain ⟨c, path⟩ := loaded
      simp only [exitOf, hload]
      rcases pinnedVersion_cases r.task.compatVersion with
        ⟨hbare, hversion⟩ | ⟨hbare, hblank, hversion⟩ | ⟨hbare, hblank, version, hversion, hsettle⟩
      · rw [follow_of_version hload hversion, if_pos hbare]
        rfl
      · rw [follow_of_version hload hversion, if_neg hbare, if_pos hblank]
        rfl
      · rw [follow_of_loaded hload hversion, if_neg hbare, hblank, hsettle]
        exact perform_exit s r _ path

/-- A run of the pipeline that exits well has records, and all its rows are printed. -/
theorem run_of_exit_ok (h : Request.parse argv = .ok r) (htask : r.task.isPipeline = true)
    (hexit : (run s argv).exit = exitOk) :
    ∃ c path version records session session',
      loaded s r = .ok (c, path) ∧ pinnedVersion r.task.compatVersion = .ok version ∧
      (shellOf s r (c.withCompatVersion version)).Returns (c.withCompatVersion version) none
        (started s r path) session records session' ∧
      s.devices.output.takes (pipelineOutput (context s r) r.task records session') = true := by
  have hrun := hexit
  rw [run_exit h, exitOf] at hexit
  cases hload : loaded s r with
  | error fault =>
      rw [hload] at hexit
      cases fault <;> cases hexit
  | ok loaded =>
      obtain ⟨c, path⟩ := loaded
      simp only [hload] at hexit
      rcases pinnedVersion_cases r.task.compatVersion with
        ⟨hbare, -⟩ | ⟨hbare, hblank, -⟩ | ⟨hbare, hblank, version, hversion, hsettle⟩
      · rw [if_pos hbare] at hexit
        cases hexit
      · rw [if_neg hbare, if_pos hblank] at hexit
        cases hexit
      · simp only [hbare, hblank, if_false, Bool.false_eq_true] at hexit
        rw [exitOfTask_of_isPipeline htask, ← hsettle] at hexit
        obtain ⟨⟨records, hbook⟩, -⟩ := (exitOfBook_iff _ _).1.1 hexit
        obtain ⟨session, session', hreturns⟩ := returns_of_bookOutcome hbook
        refine ⟨c, path, version, records, session, session', rfl, hversion, hreturns, ?_⟩
        rw [run_of_returns htask hload hversion hreturns h, outcome_exit_of_ok, exitOfRows] at hrun
        by_contra htakes
        rw [if_neg htakes] at hrun
        cases hrun

/-- A run starts commands only as a run of the pipeline that is not dry, with a configuration
and a version that can be used. -/
theorem run_commands (h : Request.parse argv = .ok r) (hne : (run s argv).commands ≠ []) :
    (∃ version json, r.task = .run false version json) ∧ (∃ c path, loaded s r = .ok (c, path)) ∧
      r.task.compatVersion ≠ .bare ∧ r.task.compatVersion.isBlank = false := by
  rw [run_of_parse h] at hne
  cases hload : loaded s r with
  | error fault =>
      rw [follow_of_fault hload] at hne
      exact absurd rfl hne
  | ok loaded =>
      obtain ⟨c, path⟩ := loaded
      rcases pinnedVersion_cases r.task.compatVersion with
        ⟨-, hversion⟩ | ⟨-, -, hversion⟩ | ⟨hbare, hblank, version, hversion, hsettle⟩
      · rw [follow_of_version hload hversion] at hne
        exact absurd rfl hne
      · rw [follow_of_version hload hversion] at hne
        exact absurd rfl hne
      · rw [follow_of_loaded hload hversion, perform_commands] at hne
        refine ⟨?_, ⟨c, path, rfl⟩, hbare, hblank⟩
        cases htask : r.task with
        | uploadPath | config =>
            rw [htask] at hne
            exact absurd rfl hne
        | plan version json =>
            have dry : (context s r).dryRun = true := congrArg Task.isDry htask
            rw [bookMachine_commands_of_dry dry] at hne
            exact absurd (ite_self _) hne
        | run dryRun version json =>
            cases dryRun with
            | false => exact ⟨version, json, rfl⟩
            | true =>
                have dry : (context s r).dryRun = true := congrArg Task.isDry htask
                rw [bookMachine_commands_of_dry dry] at hne
                exact absurd (ite_self _) hne

/-! ## Exit codes of other failures -/

variable {w : World}

theorem loaded_inWorld (h : s.world.SameButCodes w) (r : Request) :
    loaded { s with world := w } r = loaded s r := by
  simp only [loaded, context, Context.make, h.files, h.current]

theorem context_inWorld (h : s.world.SameButCodes w) (r : Request) :
    context { s with world := w } r = context s r := by
  simp only [context, h.current]

theorem exitOfBook_inWorld (h : s.world.SameButCodes w) (r : Request) (c : Config)
    (path : Option Path) :
    exitOfBook (isPrinted { s with world := w } r c path) (bookOf { s with world := w } r c path) =
      exitOfBook (isPrinted s r c path) (bookOf s r c path) := by
  have hshell : shellOf { s with world := w } r c = (shellOf s r c).inWorld w := by
    simp only [shellOf, context_inWorld h, Shell.inWorld]
  have hstarted : started { s with world := w } r path = started s r path := by
    simp only [started, context_inWorld h, machine]
  have hopen : ((shellOf s r c).inWorld w).openAt = (shellOf s r c).openAt := by
    funext start m
    simp only [Shell.openAt, Shell.inWorld, shellOf, h.files, h.current]
  rw [isPrinted, isPrinted, bookOf, bookOf, hshell, hstarted, bookOutcome, bookOutcome,
    bookHistory, bookHistory, hopen]
  cases (shellOf s r c).openAt none (started s r path) with
  | error fault => rfl
  | ok session =>
      have hworld : (shellOf s r c).world.SameButCodes w := h
      rcases Shell.runBook_agrees hworld (.ofConfig c) session with hsame | ⟨f, f', hf, hf'⟩
      · simp only [hsame]
      · simp only [hf, hf', exitOfBook]

/-- The exit codes of failed commands do not matter. -/
theorem exitOf_inWorld (h : s.world.SameButCodes w) (r : Request) :
    exitOf { s with world := w } r = exitOf s r := by
  have htask (c : Config) (path : Option Path) :
      exitOfTask { s with world := w } r c path = exitOfTask s r c path := by
    cases htask : r.task with
    | run | plan =>
        simp only [exitOfTask, htask]
        exact exitOfBook_inWorld h r c path
    | uploadPath =>
        simp only [exitOfTask, htask, context_inWorld h]
        rfl
    | config => simp only [exitOfTask, htask]
  simp only [exitOf, loaded_inWorld h, htask]

/-! ## What the exit codes say -/

/-- The task of a request is done, with a configuration. -/
structure Accepted (s : Surroundings) (r : Request) (c : Config) (path : Option Path) : Prop where
  loaded : ∃ file, loaded s r = .ok (file, path) ∧ c = r.task.compatVersion.settle file
  version : r.task.compatVersion ≠ .bare ∧ r.task.compatVersion.isBlank = false

/-- What the exit code of a run says, and when commands are started. -/
structure ExitMap (s : Surroundings) (r : Request) (o : Outcome) : Prop where
  range : o.exit ∈ ([0, 2, 3, 4, 99] : List Int)
  /-- First, the configuration is at fault. -/
  badConfig : o.exit = 3 ↔ ∃ fault, loaded s r = .error (.config fault)
  /-- Second, it is not loaded for another reason. -/
  notLoaded : ∀ fault, loaded s r = .error fault → (∀ f, fault ≠ .config f) → o.exit = 99
  /-- Third, the version of the dependency is asked for and not given. -/
  noVersion : (∃ c path, loaded s r = .ok (c, path)) → r.task.compatVersion = .bare →
    o.exit = 99
  /-- Fourth, the version is blank or no ref is known. -/
  usage : (∃ c path, loaded s r = .ok (c, path)) → r.task.compatVersion ≠ .bare →
    (o.exit = 2 ↔ (∃ text, r.task.compatVersion = .version text ∧ Text.trim text = []) ∨
      ∃ ref json, r.task = .uploadPath ref json ∧ ¬namesRef s ref)
  /-- At last, the pipeline decides if it is run or planned, and whether what is shown of its
  history is printed. -/
  book : ∀ c path, Accepted s r c path → r.task.isPipeline = true →
    (o.exit = 0 ↔
      (∃ records, bookOf s r c path = .ok records) ∧ isPrinted s r c path = true) ∧
    (o.exit = 4 ↔ ∃ f, bookOf s r c path = .error (.commandFailed f)) ∧
    (o.exit = 99 ↔
      (∃ fault, bookOf s r c path = .error fault ∧ ∀ f, fault ≠ .commandFailed f) ∨
        (∃ records, bookOf s r c path = .ok records) ∧ isPrinted s r c path = false)
  /-- Only a plan as text may show what is not printed. -/
  printed : ∀ c path, (∀ version, r.task ≠ .plan version false) → isPrinted s r c path = true
  /-- A place is printed if the output has a code for it, and always as JSON. -/
  uploadPath : ∀ c path ref json, Accepted s r c path → r.task = .uploadPath ref json →
    namesRef s ref → ∃ place, uploadPath (context s r) c ref false = .ok place ∧
      (o.exit = 0 ↔ json = true ∨ s.devices.output.fault? place = none) ∧
      (o.exit = 99 ↔ json = false ∧ s.devices.output.fault? place ≠ none)
  config : ∀ c path json, Accepted s r c path → r.task = .config json →
    o.exit = if c.timeoutSeconds.isWritable then 0 else 99
  /-- Only a run of the pipeline starts commands. -/
  commands : o.commands ≠ [] →
    (∃ version json, r.task = .run false version json) ∧ ∃ c path, Accepted s r c path
  refused : o.exit = 2 ∨ o.exit = 3 → o.commands = []
  dry : r.task.isDry = true → o.exit ≠ 4

theorem exitOf_of_accepted (h : Accepted s r c path) : exitOf s r = exitOfTask s r c path := by
  obtain ⟨⟨file, hload, rfl⟩, hbare, hblank⟩ := h
  simp only [exitOf, hload, hbare, hblank, if_false, Bool.false_eq_true]

theorem exitOfBook_mem (printed : Bool) (book : Except Shell.Fault (List StageRecord)) :
    exitOfBook printed book ∈ [exitOk, exitCommand, exitInternal] := by
  rcases book with fault | records
  · cases fault <;> simp [exitOfBook]
  · cases printed <;> simp [exitOfBook]

theorem exitOfRows_mem (s : Surroundings) (rows : List Text) :
    exitOfRows s rows ∈ [exitOk, exitInternal] := by
  unfold exitOfRows
  split <;> simp

theorem exitOfTask_mem (s : Surroundings) (r : Request) (c : Config) (path : Option Path) :
    exitOfTask s r c path ∈ [exitOk, exitUsage, exitCommand, exitInternal] := by
  cases htask : r.task with
  | run | plan =>
      have hmem := exitOfBook_mem (isPrinted s r c path) (bookOf s r c path)
      simp only [exitOfTask, htask]
      simp only [List.mem_cons] at hmem ⊢
      tauto
  | uploadPath =>
      simp only [exitOfTask, htask]
      split
      · next row _ =>
          have hmem := exitOfRows_mem s [row]
          simp only [List.mem_cons] at hmem ⊢
          tauto
      · simp
  | config =>
      simp only [exitOfTask, htask]
      split <;> simp

theorem exitOfTask_eq_usage_iff (s : Surroundings) (r : Request) (c : Config)
    (path : Option Path) : exitOfTask s r c path = exitUsage ↔
      ∃ ref json, r.task = .uploadPath ref json ∧ ¬namesRef s ref := by
  cases htask : r.task with
  | run | plan =>
      have hmem := exitOfBook_mem (isPrinted s r c path) (bookOf s r c path)
      simp only [exitOfTask, htask]
      constructor
      · intro husage
        rw [husage] at hmem
        simp [exitUsage, exitOk, exitCommand, exitInternal] at hmem
      · rintro ⟨ref, json, ⟨⟩, -⟩
  | uploadPath ref json =>
      simp only [exitOfTask, htask]
      rcases uploadPath_cases s r c ref with ⟨href, name, place, htext, hjson⟩ | ⟨href, hnone⟩
      · have hrow : ∃ row, uploadPath (context s r) c ref json = .ok row := by
          cases json
          · exact ⟨_, htext⟩
          · exact ⟨_, hjson⟩
        obtain ⟨row, hrow⟩ := hrow
        have hmem := exitOfRows_mem s [row]
        simp only [hrow]
        constructor
        · intro husage
          rw [husage] at hmem
          simp [exitUsage, exitOk, exitInternal] at hmem
        · rintro ⟨_, _, ⟨⟩, hnot⟩
          exact absurd href hnot
      · simp [hnone, href]
  | config json =>
      simp only [exitOfTask, htask]
      split <;> simp [exitOk, exitUsage, exitInternal]

/-- The exit code of the task `upload-path` where a ref is known. -/
theorem exitOfTask_uploadPath {ref : Option Text} {json : Bool}
    (htask : r.task = .uploadPath ref json) (href : namesRef s ref) (c : Config)
    (path : Option Path) :
    ∃ place, uploadPath (context s r) c ref false = .ok place ∧
      (exitOfTask s r c path = exitOk ↔ json = true ∨ s.devices.output.fault? place = none) ∧
      (exitOfTask s r c path = exitInternal ↔
        json = false ∧ s.devices.output.fault? place ≠ none) := by
  rcases uploadPath_cases s r c ref with ⟨-, name, place, htext, hjson⟩ | ⟨hnot, -⟩
  · refine ⟨place, htext, ?_⟩
    simp only [exitOfTask, htask]
    cases json with
    | true =>
        rw [hjson]
        simp [exitOfRows, exitOk, exitInternal]
    | false =>
        rw [htext]
        cases hfault : s.devices.output.fault? place with
        | none => simp [exitOfRows, Output.takes, hfault, exitOk, exitInternal]
        | some fault => simp [exitOfRows, Output.takes, hfault, exitOk, exitInternal]
  · exact absurd href hnot

theorem isBlank_iff (v : VersionOption) :
    v.isBlank = true ↔ ∃ text, v = .version text ∧ Text.trim text = [] := by
  cases v <;> simp [VersionOption.isBlank]

/-- Either the configuration is at fault, or another question decides the exit code. -/
theorem exitOf_cases (s : Surroundings) (r : Request) :
    (∃ fault, loaded s r = .error (.config fault)) ∧ exitOf s r = exitConfig ∨
    (¬∃ fault, loaded s r = .error (.config fault)) ∧
      (exitOf s r = exitInternal ∨ exitOf s r = exitUsage ∨
        ∃ c path, Accepted s r c path ∧ exitOf s r = exitOfTask s r c path) := by
  cases hload : loaded s r with
  | error fault =>
      cases fault with
      | config fault => exact .inl ⟨⟨fault, rfl⟩, by rw [exitOf, hload]⟩
      | _ => exact .inr ⟨by simp, .inl (by rw [exitOf, hload])⟩
  | ok loaded =>
      obtain ⟨c, path⟩ := loaded
      refine .inr ⟨by simp, ?_⟩
      by_cases hbare : r.task.compatVersion = .bare
      · exact .inl (by simp only [exitOf, hload, hbare, if_true])
      · cases hblank : r.task.compatVersion.isBlank with
        | true =>
            exact .inr (.inl (by simp only [exitOf, hload, hbare, hblank, if_true, if_false]))
        | false =>
            have haccepted : Accepted s r (r.task.compatVersion.settle c) path :=
              ⟨⟨c, hload, rfl⟩, hbare, hblank⟩
            exact .inr (.inr ⟨_, path, haccepted, exitOf_of_accepted haccepted⟩)

theorem exitOf_mem (s : Surroundings) (r : Request) :
    exitOf s r ∈ [exitOk, exitUsage, exitConfig, exitCommand, exitInternal] := by
  rcases exitOf_cases s r with ⟨-, hexit⟩ | ⟨-, hexit | hexit | ⟨c, path, -, hexit⟩⟩
  · simp [hexit]
  · simp [hexit]
  · simp [hexit]
  · have hmem := exitOfTask_mem s r c path
    rw [← hexit] at hmem
    simp only [List.mem_cons] at hmem ⊢
    tauto

theorem exitOf_eq_config_iff (s : Surroundings) (r : Request) :
    exitOf s r = exitConfig ↔ ∃ fault, loaded s r = .error (.config fault) := by
  rcases exitOf_cases s r with ⟨hfault, hexit⟩ | ⟨hnot, hexit⟩
  · exact ⟨fun _ => hfault, fun _ => hexit⟩
  · refine ⟨fun hconfig => ?_, fun hfault => absurd hfault hnot⟩
    rw [hconfig] at hexit
    rcases hexit with hexit | hexit | ⟨c, path, -, hexit⟩
    · cases hexit
    · cases hexit
    · have hmem := exitOfTask_mem s r c path
      rw [← hexit] at hmem
      simp [exitUsage, exitOk, exitCommand, exitInternal, exitConfig] at hmem

theorem exitOf_eq_usage_iff (hload : loaded s r = .ok (c, path))
    (hbare : r.task.compatVersion ≠ .bare) : exitOf s r = exitUsage ↔
      (∃ text, r.task.compatVersion = .version text ∧ Text.trim text = []) ∨
      ∃ ref json, r.task = .uploadPath ref json ∧ ¬namesRef s ref := by
  simp only [exitOf, hload, hbare, if_false, ← isBlank_iff]
  cases r.task.compatVersion.isBlank with
  | true => simp
  | false => simp [exitOfTask_eq_usage_iff]

/-- A failed command has an exit code of its own only in a run of the pipeline. -/
theorem exitOf_ne_command_of_dry (dry : r.task.isDry = true) : exitOf s r ≠ exitCommand := by
  intro hcommand
  rcases exitOf_cases s r with ⟨-, hexit⟩ | ⟨-, hexit | hexit | ⟨c, path, -, hexit⟩⟩
  · rw [hcommand] at hexit
    cases hexit
  · rw [hcommand] at hexit
    cases hexit
  · rw [hcommand] at hexit
    cases hexit
  · have hpipeline : r.task.isPipeline = true := by
      cases htask : r.task with
      | run | plan => rfl
      | uploadPath | config => simp [htask, Task.isDry] at dry
    rw [hcommand, exitOfTask_of_isPipeline hpipeline] at hexit
    obtain ⟨f, hf⟩ := (exitOfBook_iff _ _).2.1.1 hexit.symm
    exact bookOutcome_ne_commandFailed_of_dry dry _ _ f hf

/-- A repository whose book cannot be built, as its exit code says. -/
def unbuildable (code : Int) : Surroundings :=
  sampleSurroundings "/usr/local" fun argv =>
    if argv = ["gitbook", "build"].map Text.ofString then code else 0

/-- A terminal, in a repository whose ref has no code there. -/
def unprintable : Surroundings :=
  { unbuildable 0 with
    environment := ⟨[("CI_COMMIT_REF_NAME", [.half 0])]⟩
    devices := { clock := [.int 0], output := .utf8 } }

end Bindery.CommandLine
