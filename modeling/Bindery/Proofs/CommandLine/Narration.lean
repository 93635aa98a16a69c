import Bindery.Proofs.CommandLine.Exit
import Bindery.Proofs.Log.Labels
import Bindery.Proofs.Pipeline.Logging

/-!
# What a run tells

A request notes events one after the other, and may fail in the end.  `noted` and `failure?`
are what it notes and its failure, whatever the settings of the log are, and `shown` are the
events that are written under its own settings.

`Logs` and `Fails` list the events and the failures that there are.  What goes to the standard
error of a run that follows a request is the events that are shown and the report of the
failure, and nothing else (`run_narrates`).  Each event has a line that is read back as the event
(`Event.IsLine`), and so has the failure (`IsReport`).
-/

namespace Bindery

open Text (joined)

/-- The line tells of an event, with its labels and its fields. -/
def Event.IsLine (now : Timestamp) (ctx : Context) (e : Event) (line : Text) : Prop :=
  IsLogLine now ctx e.level e.component e.action (e.fields.map fun f => (joined f.1, f.2.reread))
    (shownFields e.fields) line

namespace CommandLine

variable {s : Surroundings} {r : Request} {argv : List Text}

/-- The events that a request notes. -/
def noted (s : Surroundings) (r : Request) : List Event := (follow s (context s r) r).2.events

/-- The failure of a request, if it fails: it is not followed to its end, or a row of its result
is not printed. -/
def failure? (s : Surroundings) (r : Request) : Option Failure :=
  (deliver s.devices.output (follow s (context s r) r).1).2

/-- The events of a request that are written. -/
def shown (s : Surroundings) (r : Request) : List Event :=
  (noted s r).filter (Event.isShown (context s r))

/-- The text is the report of a failure: in a log of JSON a line that is read back with the
message and the code, and else the message itself. -/
def IsReport (ctx : Context) (f : Failure) (text : Text) : Prop :=
  if ctx.logJson then
    ∃ line v, text = line ++ "\n" ∧ IsJsonLine line v ∧
      v.member? "status" = some (.text "fail") ∧
      (v.member? "error").bind (Json.member? "message") = some (.text (joined f.message)) ∧
      (v.member? "error").bind (Json.member? "code") = some (.int f.code)
  else text = f.message ++ "\n"

/-- What a run comes to, in terms of what its request notes and of its failure. -/
structure Narrates (s : Surroundings) (r : Request) (o : Outcome) : Prop where
  /-- The events that are shown are written, and the report of the failure behind them. -/
  stderr : o.stderr = log s.now (context s r) (noted s r) ++
    ((failure? s r).map (report (context s r))).getD []
  /-- The log has a line for each event that is shown, in their order. -/
  lines : ∃ lines, log s.now (context s r) (noted s r) = Text.ofLines lines ∧
    List.Forall₂ (Event.IsLine s.now (context s r)) (shown s r) lines
  /-- The report tells of the failure, which has a message. -/
  told : ∀ f, failure? s r = some f →
    f.message ≠ [] ∧ IsReport (context s r) f (report (context s r) f)
  /-- There is a failure with the exit code, unless the run exits well. -/
  failure : (o.exit = exitOk ∧ failure? s r = none) ∨
    (o.exit ≠ exitOk ∧ ∃ f, failure? s r = some f ∧ f.code = o.exit)

/-! ## Events -/

/-- The events that the program notes. -/
inductive Logs : Event → Prop where
  /-- A task starts. -/
  | started (ctx : Context) (path : Option Path) (task : Task) : Logs (startEvent ctx path task)
  /-- The shell notes something. -/
  | shell {e : Event} (h : Shell.Logs e) : Logs e

theorem Logs.level_mem {e : Event} (h : Logs e) : e.level ∈ Event.levels := by
  cases h with
  | started =>
      have hinfo : ("info" : Text) ∈ Event.levels := by decide
      exact hinfo
  | shell h => exact h.level_mem

/-- The labels of an event are strings. -/
theorem Logs.exists_labels {e : Event} (h : Logs e) : ∃ level component action : String,
    e.level = level ∧ e.component = component ∧ e.action = action := by
  cases h with
  | started => exact ⟨"info", "cli", "start", rfl, rfl, rfl⟩
  | shell h =>
      cases h with
      | entered => exact ⟨"debug", "shell", "cd", rfl, rfl, rfl⟩
      | dry => exact ⟨"info", "shell", "dry-run", rfl, rfl, rfl⟩
      | ran argv cwd r =>
          refine ⟨if r.code = 0 then "info" else "error", "process", "run-command", ?_, rfl, rfl⟩
          unfold Machine.runEvent
          split <;> rfl
      | output => exact ⟨"debug", "process", "output", rfl, rfl, rfl⟩
      | skipped => exact ⟨"warning", "publish", "skip-upload", rfl, rfl, rfl⟩
      | done record => exact ⟨"info", "book", record.stage.name, rfl, rfl, rfl⟩

theorem Logs.isReadable {e : Event} (h : Logs e) : e.IsReadable fun _ => True := by
  cases h with
  | started ctx path task =>
      refine Event.isReadable_of_names ["cmd", "config", "ci", "dry_run"] rfl (by decide) ?_
      simpa [startEvent] using ⟨.text trivial, .text trivial, .bool _, .bool _⟩
  | shell h => exact h.isReadable

/-- The line of an event is read back as the event. -/
theorem Logs.isLine {e : Event} (h : Logs e) (now : Timestamp) (ctx : Context) :
    e.IsLine now ctx (e.line now ctx) := by
  obtain ⟨level, component, action, hlabels⟩ := h.exists_labels
  rw [Event.IsLine, hlabels.1, hlabels.2.1, hlabels.2.2]
  exact Event.isLogLine_line h.isReadable hlabels rfl rfl

theorem runPipeline_noted (s : Surroundings) (ctx : Context) (c : Config) {m : Machine}
    (hm : ∀ e ∈ m.events, Logs e) : ∀ e ∈ (runPipeline s ctx c m).2.events, Logs e := by
  simp only [runPipeline]
  cases hsession : (Shell.mk s.world ctx (.number c.timeoutSeconds)).openAt none m with
  | error fault => exact hm
  | ok session =>
      have hs : session.Noted Logs := by
        rw [Shell.eq_of_openAt hsession]
        exact hm
      have hbook := Shell.runBook_noted ⟨s.world, ctx, .number c.timeoutSeconds⟩
        (fun _ => Logs.shell) (.ofConfig c) hs
      dsimp only
      split
      · next hrun =>
          rw [hrun] at hbook
          exact hbook
      · next hrun =>
          rw [hrun] at hbook
          exact hbook

/-- All events of a request are known. -/
theorem noted_logs (s : Surroundings) (r : Request) : ∀ e ∈ noted s r, Logs e := by
  have hnone : ∀ e ∈ (machine s).events, Logs e := by simp [machine]
  have hstart (path : Option Path) : ∀ e ∈ (started s r path).events, Logs e := by
    intro e he
    cases List.mem_singleton.1 he
    exact .started _ _ _
  unfold noted
  rcases follow_cases s r with ⟨fault, -, hfollow⟩ | ⟨failure, -, hfollow⟩ |
    ⟨c, path, version, -, -, hfollow⟩
  · rw [hfollow]
    exact hnone
  · rw [hfollow]
    exact hnone
  · rw [hfollow]
    cases hpipeline : r.task.isPipeline with
    | true =>
        have hevents := runPipeline_noted s (context s r) (c.withCompatVersion version)
          (hstart path)
        rw [perform_of_isPipeline hpipeline]
        split
        · next hrun =>
            rw [hrun] at hevents
            exact hevents
        · next hrun =>
            rw [hrun] at hevents
            exact hevents
    | false =>
        cases htask : r.task with
        | uploadPath | config => exact hstart path
        | run | plan =>
            rw [htask] at hpipeline
            cases hpipeline

/-! ## Failures -/

/-- The failures that the program reports. -/
inductive Fails : Failure → Prop where
  /-- The configuration cannot be loaded. -/
  | load (fault : Config.LoadFault) : Fails (ofLoadFault fault)
  /-- The version of the pinned dependency is given without a value. -/
  | bareVersion : Fails bareVersion
  /-- The version of the pinned dependency is blank. -/
  | blankVersion : Fails blankVersion
  /-- No ref is known. -/
  | noRef : Fails noRef
  /-- The configuration cannot be written. -/
  | unwritable : Fails (internal (Number.lengthMessage none))
  /-- The pipeline stops at a fault. -/
  | shell (fault : Shell.Fault) : Fails (ofShellFault fault)
  /-- The output has no code for a row of the result. -/
  | unprinted (fault : String) : Fails (internal fault)

/-- A failure has one of the four exit codes for failures. -/
theorem Fails.code_mem {f : Failure} (h : Fails f) :
    f.code ∈ [exitUsage, exitConfig, exitCommand, exitInternal] := by
  have hconfig : exitConfig ∈ [exitUsage, exitConfig, exitCommand, exitInternal] := by decide
  have hcommand : exitCommand ∈ [exitUsage, exitConfig, exitCommand, exitInternal] := by decide
  have hinternal : exitInternal ∈ [exitUsage, exitConfig, exitCommand, exitInternal] := by decide
  cases h with
  | bareVersion | blankVersion | noRef | unwritable => decide
  | unprinted => exact hinternal
  | load fault =>
      cases fault with
      | config => exact hconfig
      | unseen | undecodable | badValue | unwritable => exact hinternal
  | shell fault =>
      cases fault with
      | commandFailed => exact hcommand
      | unresolved | noResult | unusable => exact hinternal

theorem internal_message_ne_nil (message : Text) : (internal message).message ≠ [] :=
  List.append_ne_nil_of_left_ne_nil (by decide) _

/-- A failure has a message. -/
theorem Fails.message_ne_nil {f : Failure} (h : Fails f) : f.message ≠ [] := by
  cases h with
  | bareVersion | unwritable | unprinted => exact internal_message_ne_nil _
  | blankVersion | noRef => decide
  | load fault =>
      cases fault with
      | config fault =>
          cases fault <;> simp [ofLoadFault, Config.Fault.failure, Config.Fault.message]
      | unseen | undecodable | badValue | unwritable => exact internal_message_ne_nil _
  | shell fault =>
      cases fault with
      | commandFailed failure =>
          obtain ⟨argv, cwd, code, reason⟩ := failure
          cases reason <;>
            simp [ofShellFault, CommandFailure.failure, CommandFailure.message,
              CommandFailure.exitMessage]
      | unresolved | noResult | unusable => exact internal_message_ne_nil _

theorem fails_of_pinnedVersion {v : VersionOption} {f : Failure} (h : pinnedVersion v = .error f) :
    Fails f := by
  rcases pinnedVersion_cases v with ⟨-, hbare⟩ | ⟨-, -, hblank⟩ | ⟨-, -, version, hversion, -⟩
  · rw [hbare] at h
    cases h
    exact .bareVersion
  · rw [hblank] at h
    cases h
    exact .blankVersion
  · rw [hversion] at h
    cases h

theorem fails_of_perform {c : Config} {path : Option Path} {m : Machine} {f : Failure}
    (h : (perform s (context s r) c path r.task m).1 = .error f) : Fails f := by
  cases htask : r.task with
  | uploadPath ref json =>
      rw [htask] at h
      rcases uploadPath_cases s r c ref with ⟨-, name, place, htext, hjson⟩ | ⟨-, hplace⟩
      · cases json
        · simp [perform, htext, Except.map] at h
        · simp [perform, hjson, Except.map] at h
      · simp only [perform, hplace, Except.map, Except.error.injEq] at h
        exact h ▸ .noRef
  | config json =>
      rw [htask] at h
      simp only [perform, configOutput] at h
      split at h
      · cases h
      · exact Except.error.inj h ▸ .unwritable
  | run | plan =>
      have hpipeline : r.task.isPipeline = true := by rw [htask, Task.isPipeline]
      rw [perform_of_isPipeline hpipeline] at h
      rcases runPipeline_cases s r c m with ⟨records, -, session, -, hrun⟩ | ⟨fault, -, hrun⟩
      · rw [hrun] at h
        cases h
      · rw [hrun] at h
        exact Except.error.inj h ▸ .shell fault

theorem fails_of_follow {f : Failure} (hfollow : (follow s (context s r) r).1 = .error f) :
    Fails f := by
  rcases follow_cases s r with ⟨fault, -, hcase⟩ | ⟨failure, hversion, hcase⟩ |
    ⟨c, path, version, -, -, hcase⟩
  · rw [hcase] at hfollow
    exact Except.error.inj hfollow ▸ .load fault
  · rw [hcase] at hfollow
    exact Except.error.inj hfollow ▸ fails_of_pinnedVersion hversion
  · rw [hcase] at hfollow
    exact fails_of_perform hfollow

/-- All failures of a request are known. -/
theorem fails_of_failure? {f : Failure} (h : failure? s r = some f) : Fails f := by
  unfold failure? at h
  cases hfollow : (follow s (context s r) r).1 with
  | error failure =>
      rw [hfollow] at h
      exact Option.some.inj h ▸ fails_of_follow hfollow
  | ok rows =>
      rw [hfollow, deliver, Option.map_eq_some_iff] at h
      obtain ⟨fault, -, rfl⟩ := h
      exact .unprinted fault

/-! ## Reports -/

theorem isReadable_failure (f : Failure) : f.toJson.IsReadable fun _ => True := by
  have hnames : (["message", "code", "kind"].map joined).Nodup := by decide
  have herror : (Json.object [("message", .text f.message), ("code", .int f.code),
      ("kind", .text f.kind)]).IsReadable fun _ => True := by
    refine .object hnames (fun _ _ => trivial) ?_
    simpa using ⟨.text trivial, .int _, .text trivial⟩
  have hnames' : (["schema_version", "tool", "status", "error"].map joined).Nodup := by decide
  refine .object hnames' (fun _ _ => trivial) ?_
  simpa using ⟨.int _, .text trivial, .text trivial, herror⟩

/-- The report of a failure tells of it. -/
theorem isReport_report (ctx : Context) (f : Failure) : IsReport ctx f (report ctx f) := by
  unfold IsReport report
  split
  · exact ⟨_, _, rfl, isJsonLine_render (isReadable_failure f), rfl, rfl, rfl⟩
  · rfl

/-! ## Runs -/

/-- A run writes its events and the report of its failure to the standard error. -/
theorem run_narrates (hparse : Request.parse argv = .ok r) : Narrates s r (run s argv) := by
  rw [run_of_parse hparse]
  refine ⟨rfl, ?_, fun f hf => ⟨(fails_of_failure? hf).message_ne_nil, isReport_report _ f⟩, ?_⟩
  · refine ⟨_, log_eq_ofLines _ _ _, ?_⟩
    refine List.forall₂_map_right_iff.2 (List.forall₂_same.2 fun e he => ?_)
    exact (noted_logs s r e (List.mem_of_mem_filter he)).isLine _ _
  · have hexit : (outcome s (context s r) (follow s (context s r) r)).exit =
        ((failure? s r).map Failure.code).getD exitOk := rfl
    cases hfailure : failure? s r with
    | none => exact .inl ⟨by rw [hexit, hfailure]; rfl, rfl⟩
    | some f =>
        have hcode : (outcome s (context s r) (follow s (context s r) r)).exit = f.code := by
          rw [hexit, hfailure]
          rfl
        refine .inr ⟨fun hok => ?_, f, rfl, hcode.symm⟩
        have hmem := (fails_of_failure? hfailure).code_mem
        rw [← hcode, hok] at hmem
        exact absurd hmem (by decide)

end CommandLine
end Bindery
