import Bindery.Proofs.CommandLine.PinnedVersion
import Bindery.Proofs.CommandLine.UploadPath

/-!
# Results on the standard output

The standard output of a run carries a result or nothing.  A run that fails says why on the
standard error, and prints nothing but the first rows of a plan as text (`StopsPrinting`).  A run
with `--json` that exits well prints one line, which is read as an object with the members that
all results have and with those of its own result (`IsResult`), and nothing is lost in it
(`PrintsObject`).  Without `--json` the task `run` prints nothing.

A result can be read since its names are distinct and its numbers finite.  The names in the row
of a stage are those of the row and of its details, and the only number of a configuration has no
fraction.
-/

namespace Bindery

open Json (isLegible_of_names isLegible_list isLegible_textOrNull)
open Text (joined)

/-! ## Rows -/

namespace StageRecord

/-- The members of the row of a record in front of the details: its name, its status, and the
reason for it if there is one. -/
def heads (r : StageRecord) : List (Text × Json) :=
  ("name", .text r.stage.name) :: ("status", .text r.status) ::
    r.skipped.toList.map fun reason => ("reason", .text reason)

/-- The members of the row of a record. -/
def members (r : StageRecord) : List (Text × Json) :=
  r.heads ++ r.details.map fun detail => (detail.1, .text detail.2)

/-- The names of the members in front of the details. -/
def headNames : List Text := ["name", "status", "reason"]

/-- The details of a record have names of their own, also when halves are joined, and a reason
is not empty. -/
structure IsDistinct (r : StageRecord) : Prop where
  reason : r.skipped ≠ some []
  names : (headNames ++ r.details.map fun detail => joined detail.1).Nodup

theorem isDistinct_of_names {r : StageRecord} (names : List Text)
    (hnames : r.details.map Prod.fst = names) (hdistinct : (headNames ++ names.map joined).Nodup)
    (hreason : r.skipped ≠ some []) : r.IsDistinct :=
  ⟨hreason, by rwa [← hnames, List.map_map] at hdistinct⟩

namespace IsDistinct

variable {r : StageRecord}

theorem nodup_members (h : r.IsDistinct) : (r.members.map fun m => joined m.1).Nodup := by
  have hheads : (r.heads.map fun m => joined m.1).Sublist headNames := by
    rw [heads]
    cases r.skipped with
    | none => exact .cons_cons _ (.cons_cons _ (List.nil_sublist _))
    | some reason => exact .refl _
  rw [members, List.map_append, List.map_map]
  exact h.names.sublist (hheads.append_right _)

/-- The row of a record has all its members. -/
theorem toJson_eq (h : r.IsDistinct) : r.toJson = .object r.members := by
  have hheads : r.row.withDetails (r.details.map fun detail => (detail.1, .text detail.2)) =
      .object (Json.putAll r.heads (r.details.map fun detail => (detail.1, .text detail.2))) := by
    rw [SummaryRow.withDetails, heads, row]
    cases hskipped : r.skipped with
    | none => rfl
    | some reason =>
        cases reason with
        | nil => exact absurd hskipped h.reason
        | cons x xs => rfl
  rw [toJson, hheads, members, Json.putAll_of_nodup (List.Nodup.of_map joined ?_)]
  rw [List.map_map]
  exact h.nodup_members

theorem isLegible (h : r.IsDistinct) : (Json.object r.members).IsLegible := by
  refine .object h.nodup_members fun m hm => ?_
  simp only [members, heads, List.mem_append, List.mem_cons, List.mem_map] at hm
  rcases hm with (rfl | rfl | ⟨reason, -, rfl⟩) | ⟨detail, -, rfl⟩ <;> exact .text _

end IsDistinct
end StageRecord

namespace Shell

variable {sh : Shell} {c : Config} {start : Path} {base : Text} {stage : Stage}
  {record : StageRecord}

/-- The records of all stages have names of their own in their details. -/
theorem isDistinct_of_recordOf (h : sh.recordOf c start base stage = .ok record) :
    record.IsDistinct := by
  cases stage with
  | printVersions =>
      cases h
      exact StageRecord.isDistinct_of_names [] rfl (by decide) (by simp)
  | installToolchain =>
      cases h
      exact StageRecord.isDistinct_of_names ["package"] rfl (by decide) (by simp)
  | patchCiDependency =>
      rw [recordOf] at h
      split at h
      · cases h
        exact StageRecord.isDistinct_of_names ["path", "package"] rfl (by decide) (by simp)
      · cases h
        exact StageRecord.isDistinct_of_names [] rfl (by decide) (by decide)
  | buildSite =>
      rw [recordOf] at h
      cases hdir : sh.directory start (.parse c.docsDir) with
      | error fault =>
          rw [hdir] at h
          cases h
      | ok dir =>
          rw [hdir] at h
          cases h
          exact StageRecord.isDistinct_of_names ["docs_dir"] rfl (by decide) (by simp)
  | publishSite =>
      rw [recordOf] at h
      split at h
      · cases h
        exact StageRecord.isDistinct_of_names [] rfl (by decide) (by decide)
      · split at h
        · cases h
          exact StageRecord.isDistinct_of_names ["destination"] rfl (by decide) (by simp)
        · cases h

end Shell

namespace CommandLine

variable {s : Surroundings} {r : Request} {argv : List Text}

/-! ## Results -/

/-- The result is asked for as JSON. -/
def Task.json : Task → Bool
  | .run _ _ json => json
  | .plan _ json => json
  | .uploadPath _ json => json
  | .config json => json

/-- The values of a configuration under their names. -/
def settings (c : Config) : List (Text × Json) :=
  [("npm", .text c.npm), ("gitbook", .text c.gitbook), ("gsutil", .text c.gsutil),
    ("toolchain_package", .text c.toolchainPackage), ("docs_dir", .text c.docsDir),
    ("output_dir", .text c.outputDir), ("bucket", .text c.bucket), ("product", .text c.product),
    ("acl", .text c.acl), ("compat_package", .text c.compatPackage),
    ("compat_version", .text c.compatVersion),
    ("nested_modules_path", .text c.nestedModulesPath),
    ("timeout_seconds", .number c.timeoutSeconds)]

theorem toJson_eq_settings (c : Config) : c.toJson = .object (settings c) := rfl

/-- The members that the result of a request has beside those that all results have. -/
inductive IsResult (s : Surroundings) (r : Request) : List (Text × Json) → Prop where
  /-- A plan has all commands of the history, with their directories. -/
  | plan {version : VersionOption} {records : List StageRecord} {session : Session}
      (htask : r.task = .plan version true) (h : Completes s r records session) :
      IsResult s r [("commands", .list (session.history.map fun e =>
        .object [("cwd", .text e.cwd.text), ("argv", .texts e.argv)]))]
  /-- A run says whether it was dry, and has a row for each stage. -/
  | run {dryRun : Bool} {version : VersionOption} {records : List StageRecord} {session : Session}
      (htask : r.task = .run dryRun version true) (h : Completes s r records session) :
      IsResult s r [("dry_run", .bool dryRun),
        ("steps", .list (records.map fun record => .object record.members))]
  /-- The place of a book is that of the ref that is given, or else of the one that the
  environment names. -/
  | uploadPath {given : Option Text} {ref place : Text} {c : Config} {path : Option Path}
      (htask : r.task = .uploadPath given true) (hload : loaded s r = .ok (c, path))
      (href : (if Text.trim (given.getD []) = [] then (context s r).ref?
        else some (Text.trim (given.getD []))) = some ref)
      (hplace : c.destination? ref = some place) :
      IsResult s r [("ref", .text ref), ("destination", .text place)]
  /-- A configuration is shown with the path of its file, if it has one, and with all values. -/
  | config {c : Config} {path : Option Path} (htask : r.task = .config true)
      (hload : loaded s r = .ok (c, path)) :
      IsResult s r [("source", .textOrNull (path.map Path.text)),
        ("config", .object (settings c))]

/-! ## Results can be read -/

theorem Completes.isDistinct {records : List StageRecord} {session : Session}
    (h : Completes s r records session) : ∀ record ∈ records, record.IsDistinct := by
  obtain ⟨c, path, version, start, -, -, hbook⟩ := h.returns
  intro record hrecord
  exact Shell.isDistinct_of_recordOf ((Shell.runBook_completed _ hbook.ran).recordOf_of_mem hrecord)

/-- The values of a sound configuration can be read. -/
theorem isLegible_valueJson {c : Config} (h : c.IsSound) (k : Key) :
    (Config.valueJson (c.get k)).IsLegible := by
  have hrule := h k
  cases k with
  | timeoutSeconds =>
      refine .number (Number.isFinite_of_isWhole ?_)
      cases hwhole : c.timeoutSeconds.isWhole with
      | true => rfl
      | false => simp [Key.rule, Rule.problem?, Config.get, hwhole] at hrule
  | _ => exact .text _

theorem isLegible_config {c : Config} (h : c.IsSound) : c.toJson.IsLegible := by
  refine isLegible_of_names (Key.all.map fun k => k.name) ?_ (by decide) fun v hv => ?_
  · rw [List.map_map]
    rfl
  · rw [List.map_map, List.mem_map] at hv
    obtain ⟨k, -, rfl⟩ := hv
    exact isLegible_valueJson h k

theorem IsResult.isLegible {members : List (Text × Json)} (h : IsResult s r members) :
    (Json.object (base (context s r) ++ members)).IsLegible := by
  cases h with
  | plan htask h =>
      refine isLegible_result _ ["commands"] rfl (by decide) ?_
      simpa using isLegible_list fun e _ => isLegible_keyJson e.key
  | run htask h =>
      refine isLegible_result _ ["dry_run", "steps"] rfl (by decide) ?_
      simpa using ⟨.bool _, isLegible_list fun record hrecord =>
        (h.isDistinct record hrecord).isLegible⟩
  | uploadPath htask hload href hplace =>
      refine isLegible_result _ ["ref", "destination"] rfl (by decide) ?_
      simpa using ⟨.text _, .text _⟩
  | config htask hload =>
      refine isLegible_result _ ["source", "config"] rfl (by decide) ?_
      have hconfig := toJson_eq_settings _ ▸ isLegible_config (Config.isSound_of_load hload)
      simpa using ⟨isLegible_textOrNull _, hconfig⟩

/-! ## What runs print -/

/-- A command of a history as a row of text: its directory and its words. -/
def shownRow (e : Executed) : Text :=
  List.flatten ["(", e.cwd.text, ") $ ", List.intercalate " " e.argv]

theorem plannedRow_eq_shownRow : plannedRow = shownRow := by
  funext e
  simp [plannedRow, shownRow, Machine.commandLine]

/-- The pipeline is planned as text, and the plan completes. -/
def PlansText (s : Surroundings) (argv : List Text) (session : Session) : Prop :=
  ∃ r version records, Request.parse argv = .ok r ∧ r.task = .plan version false ∧
    Completes s r records session

/-- A run prints the rows of a plan in front of the first one that the output has no code for. -/
structure StopsPrinting (s : Surroundings) (argv : List Text) (o : Outcome) : Prop where
  exit : o.exit = 99
  /-- Only a plan as text stops so. -/
  plan : ∃ session, PlansText s argv session ∧
    ∃ front row back, session.history.map shownRow = front ++ row :: back ∧
      (∀ row ∈ front, s.devices.output.fault? row = none) ∧
      s.devices.output.fault? row ≠ none ∧ o.stdout = Text.ofLines front

/-- A run prints nothing, and it is none of a plan as text that completes. -/
structure IsSilent (s : Surroundings) (argv : List Text) (o : Outcome) : Prop where
  stdout : o.stdout = []
  plan : ∀ session, ¬PlansText s argv session

/-- A task that does not run the pipeline has one row. -/
theorem length_of_perform {ctx : Context} {c : Config} {path : Option Path} {task : Task}
    {rows : List Text} {m m' : Machine} (hpipeline : task.isPipeline = false)
    (h : perform s ctx c path task m = (.ok rows, m')) : rows.length = 1 := by
  have hone {row : Except Failure Text} (hrow : row.map (fun row => [row]) = .ok rows) :
      rows.length = 1 := by
    cases row with
    | error failure => cases hrow
    | ok row =>
        cases hrow
        rfl
  cases task with
  | run | plan => cases hpipeline
  | uploadPath | config => exact hone (congrArg Prod.fst h)

/-- Of the tasks that run the pipeline a plan as text has a row for each command, and each other
one has one row at most. -/
theorem pipelineOutput_cases (ctx : Context) (task : Task) (records : List StageRecord)
    (session : Session) :
    ((pipelineOutput ctx task records session).length ≤ 1 ∧
      ∀ version, task ≠ .plan version false) ∨
    ∃ version, task = .plan version false ∧
      pipelineOutput ctx task records session = session.history.map shownRow := by
  cases task with
  | run dryRun version json => cases json <;> exact .inl (by simp [pipelineOutput])
  | plan version json =>
      cases json with
      | true => exact .inl (by simp [pipelineOutput])
      | false =>
          rw [← plannedRow_eq_shownRow]
          exact .inr ⟨version, rfl, rfl⟩
  | uploadPath | config => exact .inl (by simp [pipelineOutput])

/-- Only a plan as text has more than one row. -/
theorem rows_cases {rows : List Text} {m : Machine}
    (h : follow s (context s r) r = (.ok rows, m)) :
    (rows.length ≤ 1 ∧ ∀ version, r.task ≠ .plan version false) ∨
    ∃ version records session, r.task = .plan version false ∧
      Completes s r records session ∧ rows = session.history.map shownRow := by
  rcases follow_cases s r with ⟨fault, -, hfollow⟩ | ⟨failure, -, hfollow⟩ |
    ⟨c, path, version, hload, hversion, hfollow⟩
  · rw [hfollow] at h
    cases h
  · rw [hfollow] at h
    cases h
  · rw [hfollow] at h
    cases hpipeline : r.task.isPipeline with
    | false =>
        refine .inl ⟨(length_of_perform hpipeline h).le, fun version htask => ?_⟩
        rw [htask] at hpipeline
        cases hpipeline
    | true =>
        rw [perform_of_isPipeline hpipeline] at h
        rcases runPipeline_cases s r (c.withCompatVersion version) (started s r path) with
          ⟨records, start, session, hbook, hrun⟩ | ⟨fault, -, hrun⟩
        · rw [hrun] at h
          cases h
          have hcompletes : Completes s r records session :=
            ⟨hpipeline, c, path, version, start, hload, hversion, hbook⟩
          rcases pipelineOutput_cases (context s r) r.task records session with
            hlength | ⟨version, htask, houtput⟩
          · exact .inl hlength
          · exact .inr ⟨version, records, session, htask, hcompletes, houtput⟩
        · rw [hrun] at h
          cases h

/-- A run that fails prints nothing, or the first rows of a plan. -/
theorem stdout_of_refused {rows : List Text} {m : Machine} (hparse : Request.parse argv = .ok r)
    (hfollow : follow s (context s r) r = (.ok rows, m))
    (htakes : s.devices.output.takes rows = false) :
    (run s argv).stderr ≠ [] ∧
      (IsSilent s argv (run s argv) ∨ StopsPrinting s argv (run s argv)) := by
  obtain ⟨front, row, back, fault, hrows, hfront, hfault, houtcome⟩ :=
    exists_refused htakes (context s r) m
  have hrun := (run_of_parse hparse).trans (hfollow ▸ houtcome)
  rw [hrun]
  refine ⟨List.append_ne_nil_of_right_ne_nil _ (report_ne_nil _ _), ?_⟩
  rcases rows_cases hfollow with
    ⟨hlength, hother⟩ | ⟨version, records, session, htask, hcompletes, hplan⟩
  · left
    have hnil : front = [] := by
      rw [hrows, List.length_append, List.length_cons] at hlength
      exact List.length_eq_zero_iff.1 (by omega)
    refine ⟨by rw [hnil]; rfl, ?_⟩
    rintro session ⟨r', version, records, hparse', htask, -⟩
    cases hparse.symm.trans hparse'
    exact hother version htask
  · right
    refine ⟨rfl, session, ⟨r, version, records, hparse, htask, hcompletes⟩, front, row, back,
      hplan.symm.trans hrows, fun row hrow => ?_, by simp [hfault], rfl⟩
    simpa using List.all_eq_true.1 hfront row hrow

/-- The request of a run that completes is followed to its rows. -/
theorem Completes.follow {records : List StageRecord} {session : Session}
    (h : Completes s r records session) : CommandLine.follow s (context s r) r =
      (.ok (pipelineOutput (context s r) r.task records session), session.machine) := by
  obtain ⟨c, path, version, start, hload, hversion, hbook⟩ := h.returns
  exact follow_of_returns h.isPipeline hload hversion hbook

/-- A run that fails says why on the standard error. -/
theorem stdout_of_exit (s : Surroundings) (argv : List Text) (h : (run s argv).exit ≠ 0) :
    (run s argv).stderr ≠ [] ∧
      (IsSilent s argv (run s argv) ∨ StopsPrinting s argv (run s argv)) := by
  cases hparse : Request.parse argv with
  | error stopped =>
      obtain ⟨page, stop⟩ := stopped
      have hrun : run s argv = answer page stop := by rw [run, hparse]
      rw [hrun] at h ⊢
      cases stop with
      | help | version => exact absurd rfl h
      | fault fault =>
          refine ⟨List.append_ne_nil_of_right_ne_nil _ (by decide), .inl ⟨rfl, ?_⟩⟩
          rintro session ⟨r, version, records, hparse', -⟩
          cases hparse.symm.trans hparse'
  | ok r =>
      rcases hfollow : follow s (context s r) r with ⟨f | rows, m⟩
      · have hrun := run_of_parse (s := s) hparse
        rw [hfollow, outcome_of_error] at hrun
        rw [hrun]
        refine ⟨List.append_ne_nil_of_right_ne_nil _ (report_ne_nil _ _), .inl ⟨rfl, ?_⟩⟩
        rintro session ⟨r', version, records, hparse', -, hcompletes⟩
        cases hparse.symm.trans hparse'
        cases hcompletes.follow.symm.trans hfollow
      · cases htakes : s.devices.output.takes rows with
        | true =>
            rw [run_of_parse hparse, hfollow, outcome_of_takes htakes] at h
            exact absurd rfl h
        | false => exact stdout_of_refused hparse hfollow htakes

/-- A request that exits well has its configuration. -/
theorem loaded_of_exit (hparse : Request.parse argv = .ok r) (h : (run s argv).exit = exitOk) :
    ∃ c path, loaded s r = .ok (c, path) := by
  cases hload : loaded s r with
  | ok found => exact ⟨found.1, found.2, rfl⟩
  | error fault =>
      rw [run_of_parse hparse, follow_of_fault hload] at h
      have hcode := (Fails.load fault).code_mem
      have hexit : (ofLoadFault fault).code = exitOk := h
      rw [hexit] at hcode
      exact absurd hcode (by decide)

/-- The rows of a run that completes have all members of their records. -/
theorem Completes.map_toJson {records : List StageRecord} {session : Session}
    (h : Completes s r records session) :
    records.map StageRecord.toJson = records.map fun record => .object record.members :=
  List.map_congr_left fun record hrecord => (h.isDistinct record hrecord).toJson_eq

/-- The place of a book that is printed is that of the ref. -/
theorem uploadPath_eq_ok {ctx : Context} {c : Config} {given : Option Text} {stdout : Text}
    (h : uploadPath ctx c given true = .ok stdout) :
    ∃ ref place, (if Text.trim (given.getD []) = [] then ctx.ref?
        else some (Text.trim (given.getD []))) = some ref ∧
      c.destination? ref = some place ∧
      stdout = result .line ctx [("ref", .text ref), ("destination", .text place)] := by
  unfold uploadPath at h
  simp only [List.isEmpty_iff, if_true] at h
  split at h
  · cases h
  · next ref href =>
      split at h
      · cases h
      · next place hplace => exact ⟨ref, place, href, hplace, (Except.ok.inj h).symm⟩

/-- A configuration is printed with the path of its file, unless it cannot be written. -/
theorem stdout_config (hparse : Request.parse argv = .ok r) (htask : r.task = .config true)
    {c : Config} {path : Option Path} (hload : loaded s r = .ok (c, path))
    (h : (run s argv).exit = exitOk) : (run s argv).stdout =
      Text.ofLines [result .line (context s r)
        [("source", sourceJson path), ("config", c.toJson)]] := by
  have hversion : pinnedVersion r.task.compatVersion = .ok none := by
    rw [htask]
    rfl
  have hrun : run s argv = outcome s (context s r)
      ((configOutput (context s r) c path true).map fun row => [row], started s r path) := by
    rw [run_of_parse hparse, follow_of_loaded hload hversion, htask]
    rfl
  cases hwritable : c.timeoutSeconds.isWritable with
  | true =>
      have houtput : configOutput (context s r) c path true =
          .ok (result .line (context s r) [("source", sourceJson path), ("config", c.toJson)]) :=
        if_pos hwritable
      rw [hrun, houtput, Except.map, outcome_of_takes (takes_result _ _ _ _)]
  | false =>
      have houtput : configOutput (context s r) c path true =
          .error (internal (Number.lengthMessage none)) := if_neg (by rw [hwritable]; decide)
      rw [hrun, houtput] at h
      cases h

/-- A task with `--json` that exits well prints its result on one line. -/
theorem exists_result (hparse : Request.parse argv = .ok r) (h : (run s argv).exit = exitOk)
    (hjson : r.task.json = true) : ∃ members, IsResult s r members ∧
      (run s argv).stdout = Text.ofLines [result .line (context s r) members] := by
  cases htask : r.task with
  | run dryRun version json =>
      obtain rfl : json = true := by rwa [htask] at hjson
      obtain ⟨records, session, hcompletes, hstdout, -⟩ :=
        completes_of_exit hparse (by rw [htask]; rfl) h
      have hdry : (context s r).dryRun = dryRun := congrArg Task.isDry htask
      refine ⟨_, .run htask hcompletes, ?_⟩
      rw [hstdout, htask, pipelineOutput, hdry, hcompletes.map_toJson]
  | plan version json =>
      obtain rfl : json = true := by rwa [htask] at hjson
      obtain ⟨records, session, hcompletes, hstdout, -⟩ :=
        completes_of_exit hparse (by rw [htask]; rfl) h
      refine ⟨_, .plan htask hcompletes, ?_⟩
      rw [hstdout, htask]
      rfl
  | uploadPath given json =>
      obtain rfl : json = true := by rwa [htask] at hjson
      obtain ⟨c, path, hload⟩ := loaded_of_exit hparse h
      have hrun := run_uploadPath hparse htask hload
      rcases uploadPath_cases s r c given with ⟨-, name, text, -, hplace⟩ | ⟨-, hnone⟩
      · obtain ⟨ref, place, href, hdestination, hrow⟩ := uploadPath_eq_ok hplace
        refine ⟨_, .uploadPath htask hload href hdestination, ?_⟩
        rw [hrun, hplace, hrow, Except.map, outcome_of_takes (takes_result _ _ _ _)]
      · rw [hrun, hnone] at h
        cases h
  | config json =>
      obtain rfl : json = true := by rwa [htask] at hjson
      obtain ⟨c, path, hload⟩ := loaded_of_exit hparse h
      exact ⟨_, .config htask hload, stdout_config hparse htask hload h⟩

/-- Without `--json` a run of the pipeline that exits well prints nothing. -/
theorem stdout_of_plainRun (hparse : Request.parse argv = .ok r)
    (h : (run s argv).exit = exitOk) {dryRun : Bool} {version : VersionOption}
    (htask : r.task = .run dryRun version false) : (run s argv).stdout = [] := by
  obtain ⟨records, session, -, hstdout, -⟩ := completes_of_exit hparse (by rw [htask]; rfl) h
  rw [hstdout, htask]
  rfl

/-- The standard output of a run that exits well carries its result. -/
structure CarriesResult (s : Surroundings) (r : Request) (stdout : Text) : Prop where
  /-- With `--json` it is one line, with the members that all results have and with those of the
  result of the request. -/
  result : r.task.json = true → ∃ members, IsResult s r members ∧
    PrintsObject stdout (("schema_version", .int 1) :: ("tool", .text "butler-book") ::
      ("status", .text "ok") :: ("run_id", .text (context s r).runId) ::
      ("ci", .bool (context s r).ci) :: ("ref_name", .textOrNull (context s r).refName) :: members)
  /-- Without `--json` the task `run` prints nothing. -/
  silent : ∀ dryRun version, r.task = .run dryRun version false → stdout = []

/-- The standard output carries a result or nothing.

A run that fails says why on the standard error and prints nothing, unless it is a plan as text
that is stopped at a row that the output has no code for.  A run that exits well carries its
result: with `--json` one line that is read as an object, in which no member has the name of
another and nothing is lost.  A text in it in which no half of a surrogate pair stands in front of
its other half is read as it is, and else the two are read as their character. -/
theorem stdout_carriesResult (s : Surroundings) (argv : List Text) :
    ((run s argv).exit ≠ 0 → (run s argv).stderr ≠ [] ∧
      (IsSilent s argv (run s argv) ∨ StopsPrinting s argv (run s argv))) ∧
    ∀ r, Request.parse argv = .ok r → (run s argv).exit = 0 →
      CarriesResult s r (run s argv).stdout := by
  refine ⟨stdout_of_exit s argv, fun r hparse hexit => ⟨fun hjson => ?_, ?_⟩⟩
  · obtain ⟨members, hresult, hstdout⟩ := exists_result hparse hexit hjson
    exact ⟨members, hresult, hstdout ▸ printsObject_of_isLegible hresult.isLegible⟩
  · intro dryRun version htask
    exact stdout_of_plainRun hparse hexit htask

/-- Runs that exit well and that fail, with `--json` and without it, and a configuration with a
binary number for the most seconds of a command.  A plan is stopped at its last row, behind
seven others. -/
theorem stdout_carriesResult_of_samples :
    let s := sampleSurroundings "/usr/local" fun _ => 0
    let failing := sampleSurroundings "/usr/local" fun _ => 1
    let timed := configuredSurroundings "timeout_seconds: 2.5e+17\n".toUTF8.toList
    let jsonRun : Request := { task := .run false .absent true }
    let jsonConfig : Request := { task := .config true }
    (∃ members, IsResult s jsonRun members ∧
      PrintsObject (run s ["run", "--json"]).stdout (base (context s jsonRun) ++ members)) ∧
    (run s ["run"]).stdout = [] ∧
    ((run failing ["run", "--json"]).stderr ≠ [] ∧ (run failing ["run", "--json"]).stdout = []) ∧
    StopsPrinting unprintable ["plan"] (run unprintable ["plan"]) ∧
    (loaded timed jsonConfig).toOption.map (·.1.timeoutSeconds) = some (.float 2.5e17) ∧
    ∃ members, IsResult timed jsonConfig members ∧
      PrintsObject (run timed ["config", "--json"]).stdout
        (base (context timed jsonConfig) ++ members) := by
  intro s failing timed jsonRun jsonConfig
  have hexit : (run s ["run", "--json"]).exit = 0 := by decide +kernel
  have hplain : (run s ["run"]).exit = 0 := by decide +kernel
  have hfailed : (run failing ["run", "--json"]).exit ≠ 0 := by decide +kernel
  have hstopped : (run unprintable ["plan"]).exit ≠ 0 := by decide +kernel
  have hsome : (run unprintable ["plan"]).stdout ≠ [] := by decide +kernel
  have hconfig : (run timed ["config", "--json"]).exit = 0 := by decide +kernel
  obtain ⟨hstderr, hstdout⟩ := (stdout_carriesResult failing ["run", "--json"]).1 hfailed
  refine ⟨?_, ?_, ⟨hstderr, ?_⟩, ?_, by decide +kernel, ?_⟩
  · exact ((stdout_carriesResult s ["run", "--json"]).2 jsonRun rfl hexit).result rfl
  · exact ((stdout_carriesResult s ["run"]).2 plainRun rfl hplain).silent _ _ rfl
  · refine (hstdout.resolve_right fun hstops => ?_).stdout
    have hinternal := hstops.exit
    exact absurd hinternal (by decide +kernel)
  · obtain ⟨-, hprinted⟩ := (stdout_carriesResult unprintable ["plan"]).1 hstopped
    exact hprinted.resolve_left fun hsilent => hsome hsilent.stdout
  · exact ((stdout_carriesResult timed ["config", "--json"]).2 jsonConfig rfl hconfig).result rfl

/-- A name of two halves of one surrogate pair, in a configuration file. -/
def halvesFile : List UInt8 := "npm: \"\\ud83d\\ude00\"\n".toUTF8.toList

/-- The two halves are read back from the printed configuration as one character, so that the
text that is set and the one that is printed are different. -/
theorem halves_printed_joined :
    let s := configuredSurroundings halvesFile
    ∃ c path line read, loaded s { task := .config true } = .ok (c, path) ∧
      (run s ["config", "--json"]).exit = 0 ∧
      (run s ["config", "--json"]).stdout = line ++ "\n" ∧ IsJsonLine line read ∧
      (read.member? "config").bind (Json.member? Key.npm.name) = some (.text "😀") ∧
      c.npm ≠ Text.ofString "😀" := by
  intro s
  have hexit : (run s ["config", "--json"]).exit = 0 := by decide +kernel
  have hparse : Request.parse ["config", "--json"] = .ok { task := .config true } := rfl
  obtain ⟨c, path, hload⟩ := loaded_of_exit hparse hexit
  have hnpm : c.npm = [.half 0x3D, .half 0x600] := by
    have hloaded : (loaded s { task := .config true }).toOption.map (·.1.npm) =
        some [.half 0x3D, .half 0x600] := by decide +kernel
    rw [hload] at hloaded
    exact Option.some.inj hloaded
  have hlegible := IsResult.isLegible (.config rfl hload)
  refine ⟨c, path, _, _, hload, hexit, ?_, hlegible.isJsonLine, ?_, ?_⟩
  · rw [stdout_config hparse rfl hload hexit, Text.ofLines_singleton]
    rfl
  · have hconfig := hlegible.member?_reread (m := ("config", c.toJson))
      (List.mem_append_right _ (.tail _ (.head _))) (Text.isSettled_ofString _)
    have hname : c.toJson.reread.member? Key.npm.name = some (Json.text c.npm).reread :=
      (isLegible_config (Config.isSound_of_load hload)).member?_reread
        (m := (Key.npm.name, .text c.npm)) (List.mem_map.2 ⟨.npm, by decide, rfl⟩)
        (Text.isSettled_ofString _)
    have hjoined : joined c.npm = Text.ofString "😀" := by
      rw [hnpm]
      decide +kernel
    rw [hconfig, Option.bind_some, hname, Json.reread, Json.orderedWith, hjoined]
  · rw [hnpm]
    decide

end CommandLine
end Bindery
