import Bindery.Proofs.FileSystem.Names
import Bindery.Proofs.Pipeline.History
import Bindery.Proofs.Pipeline.Logging
import Bindery.Proofs.Pipeline.Publish

/-!
# The summary of a run

A stage that is done leaves a record, and the commands that it ran are a segment of the
history.  `Proceeds` follows stages one after the other, each with its record and its segment,
up to the first one with a fault.  `Accounts` says what a record tells of its segment: that the
stage was skipped exactly if there is nothing in it, and where its commands ran and what they
installed or uploaded.

`runBook_summarizes` says of every run of the pipeline that the records of the stages that are
done account for the history, that they are the summary of a run that comes to its end, and
that the log tells of each of them once.
-/

namespace Bindery

/-- A stage that is done, by its record and the commands that ended in it. -/
structure StagePart where
  /-- The record. -/
  record : StageRecord
  /-- The commands. -/
  segment : List Executed

/-- The event says that a stage is done. -/
def Event.isOfBook (e : Event) : Bool := e.component == Text.ofString "book"

namespace Shell

variable {sh : Shell} {c : Config} {s s₁ s' : Session}

/-! ## Records and segments -/

/-- The status of a record is that of its segment. -/
structure Tells (record : StageRecord) (segment : List Executed) : Prop where
  skipped : record.status = "skipped" ↔ segment = []
  reason : record.status = "skipped" → ∃ reason, record.skipped = some reason ∧ reason ≠ []
  ok : record.status = "ok" ↔ segment ≠ [] ∧ ∀ e ∈ segment, e.code = 0

/-- What the record of a stage from a directory tells of the commands of the stage. -/
structure Accounts (sh : Shell) (start : Path) (p : StagePart) : Prop
    extends Tells p.record p.segment where
  /-- The record of the book names the directory of all commands. -/
  built : p.record.stage = .buildSite → ∃ docs,
    p.record.details = [(Text.ofString "docs_dir", docs)] ∧ ∀ e ∈ p.segment, e.cwd.text = docs
  /-- The record of the dependency names what the second command installs, and a path to the
  directory of this command. -/
  pinned : p.record.stage = .patchCiDependency → p.record.status = "ok" →
    ∃ path package query pin,
      p.record.details = [(Text.ofString "path", path), (Text.ofString "package", package)] ∧
      p.segment = [query, pin] ∧ pin.argv[2]? = some package ∧
      sh.directory start (.parse path) = .ok pin.cwd
  /-- The record of the upload names the last word of the last command. -/
  uploaded : p.record.stage = .publishSite → p.record.status = "ok" →
    ∃ place e, p.record.details = [(Text.ofString "destination", place)] ∧
      p.segment.getLast? = some e ∧ e.argv.getLast? = some place

theorem tells_of_none {record : StageRecord} {segment : List Executed}
    (hskipped : record.skipped = none) (hne : segment ≠ []) (hcodes : ∀ e ∈ segment, e.code = 0) :
    Tells record segment := by
  have hok : record.status = "ok" := by simp [StageRecord.status, hskipped]
  constructor <;> simp_all

theorem tells_of_some {record : StageRecord} {reason : Text}
    (hskipped : record.skipped = some reason) (hreason : reason ≠ []) : Tells record [] := by
  have hstatus : record.status = "skipped" := by simp [StageRecord.status, hskipped]
  constructor <;> simp_all

/-- The entries of a history have the words and the directories that were planned. -/
theorem keys_eq_of_planned {ran : List Executed} (ps : List Planned)
    (h : ran.map (.ok ·.key) = Plan.keys (ps.map .ok)) :
    ran.map Executed.key = ps.map Planned.key := by
  rw [keys_map_ok] at h
  exact eq_of_map_ok ((List.map_map ..).trans h)

theorem hasNames_modulesBelow (c : Config) (base : Text) : (modulesBelow c base).HasNames :=
  (Path.hasNames_parse base).div (Path.hasNames_parse c.nestedModulesPath)

/-- The commands in a directory are planned there, unless the directory has a fault. -/
theorem planIn_ok (dir : Path) (argvs : List (List Text)) :
    planIn (.ok dir) argvs = (argvs.map fun argv => Planned.mk argv dir none).map .ok := by
  simp [planIn, Except.map]

section

variable {start : Path} {base : Text} {record : StageRecord} {ran : List Executed}

/-- The pinned dependency is installed in the directory that the record names, and without
continuous integration there is nothing to do. -/
theorem accounts_patchCiDependency
    (hrecord : sh.recordOf c start base .patchCiDependency = .ok record)
    (hkeys : ran.map (.ok ·.key) = (sh.stagePlan c start base .patchCiDependency).keys)
    (hcodes : ∀ e ∈ ran, e.code = 0) : Accounts sh start ⟨record, ran⟩ := by
  simp only [recordOf] at hrecord
  simp only [stagePlan] at hkeys
  cases hci : sh.context.ci with
  | false =>
      simp only [hci, Bool.false_eq_true, if_false] at hrecord hkeys
      cases hrecord
      obtain rfl : ran = [] := List.map_eq_nil_iff.1 hkeys
      exact ⟨tells_of_some rfl (by decide), by simp, by simp [StageRecord.status], by simp⟩
  | true =>
      simp only [hci, if_true] at hrecord hkeys
      cases hrecord
      cases hdir : sh.directory start (modulesBelow c base) with
      | error fault =>
          rw [hdir] at hkeys
          obtain ⟨query, rest, -, -, hrest⟩ := List.map_eq_cons_iff.1 hkeys
          obtain ⟨pin, -, -, hpin, -⟩ := List.map_eq_cons_iff.1 hrest
          cases hpin
      | ok dir =>
          rw [hdir, planIn_ok] at hkeys
          have hran := keys_eq_of_planned
            [⟨baseQuery c, start, some base⟩, ⟨pinCommand c, dir, none⟩] hkeys
          obtain ⟨query, rest, rfl, -, hrest⟩ := List.map_eq_cons_iff.1 hran
          obtain ⟨pin, rfl, hpin⟩ := List.map_eq_singleton_iff.1 hrest
          have hargv : pin.argv = pinCommand c := congrArg Prod.fst hpin
          have hcwd : pin.cwd = dir := congrArg Prod.snd hpin
          refine ⟨tells_of_none rfl (by simp) hcodes, by simp, fun _ _ => ?_, by simp⟩
          refine ⟨_, _, query, pin, rfl, rfl, by rw [hargv]; rfl, ?_⟩
          rw [Path.parse_text (hasNames_modulesBelow c base), hdir, hcwd]

/-- The book is built in the directory that the record names. -/
theorem accounts_buildSite (hrecord : sh.recordOf c start base .buildSite = .ok record)
    (hkeys : ran.map (.ok ·.key) = (sh.stagePlan c start base .buildSite).keys)
    (hcodes : ∀ e ∈ ran, e.code = 0) : Accounts sh start ⟨record, ran⟩ := by
  simp only [recordOf] at hrecord
  simp only [stagePlan] at hkeys
  cases hdir : sh.directory start (.parse c.docsDir) with
  | error fault =>
      rw [hdir] at hrecord
      cases hrecord
  | ok dir =>
      rw [hdir] at hrecord hkeys
      rw [planIn_ok] at hkeys
      cases hrecord
      have hran := keys_eq_of_planned _ hkeys
      have hne : ran ≠ [] := by
        rintro rfl
        cases hran
      have hcwd : ∀ e ∈ ran, e.cwd = dir := by
        intro e he
        have hkey : e.key ∈ ran.map Executed.key := List.mem_map_of_mem he
        rw [hran] at hkey
        simp only [List.mem_map, exists_exists_and_eq_and] at hkey
        obtain ⟨argv, -, hkey⟩ := hkey
        exact (congrArg Prod.snd hkey).symm
      refine ⟨tells_of_none rfl hne hcodes, fun _ => ?_, by simp, by simp⟩
      exact ⟨dir.text, rfl, fun e he => by rw [hcwd e he]⟩

/-- The book is uploaded to the place that the record names, and without a ref there is
nothing to do. -/
theorem accounts_publishSite (hrecord : sh.recordOf c start base .publishSite = .ok record)
    (hkeys : ran.map (.ok ·.key) = (sh.stagePlan c start base .publishSite).keys)
    (hcodes : ∀ e ∈ ran, e.code = 0) : Accounts sh start ⟨record, ran⟩ := by
  simp only [recordOf] at hrecord
  simp only [stagePlan] at hkeys
  cases href : sh.context.ref? with
  | none =>
      rw [href] at hrecord hkeys
      cases hrecord
      obtain rfl : ran = [] := List.map_eq_nil_iff.1 hkeys
      exact ⟨tells_of_some rfl (by decide), by simp, by simp, by simp [StageRecord.status]⟩
  | some ref =>
      rw [href] at hrecord hkeys
      dsimp only at hrecord hkeys
      rw [uploadOf, Config.uploadCommand?] at hkeys
      cases hplace : c.destination? ref with
      | none =>
          rw [hplace] at hrecord
          cases hrecord
      | some place =>
          rw [hplace] at hrecord hkeys
          cases hrecord
          have hran := keys_eq_of_planned [⟨_, start, none⟩] hkeys
          obtain ⟨e, rfl, he⟩ := List.map_eq_singleton_iff.1 hran
          have hargv : e.argv = [c.gsutil, "-m", "cp", "-r", "-a", c.acl, c.source, place] :=
            congrArg Prod.fst he
          refine ⟨tells_of_none rfl (by simp) hcodes, by simp, by simp, fun _ _ => ?_⟩
          exact ⟨place, e, rfl, rfl, by rw [hargv]; rfl⟩

/-- The record that a stage leaves accounts for the commands that were planned for it. -/
theorem accounts_of_recordOf {stage : Stage}
    (hrecord : sh.recordOf c start base stage = .ok record)
    (hkeys : ran.map (.ok ·.key) = (sh.stagePlan c start base stage).keys)
    (hcodes : ∀ e ∈ ran, e.code = 0) : Accounts sh start ⟨record, ran⟩ := by
  cases stage with
  | printVersions | installToolchain =>
      cases hrecord
      have hne : ran ≠ [] := by
        rintro rfl
        cases hkeys
      exact ⟨tells_of_none rfl hne hcodes, by simp, by simp, by simp⟩
  | patchCiDependency => exact accounts_patchCiDependency hrecord hkeys hcodes
  | buildSite => exact accounts_buildSite hrecord hkeys hcodes
  | publishSite => exact accounts_publishSite hrecord hkeys hcodes

end

/-! ## Events of stages -/

/-- The line tells of a stage that is done: of its name and its status. -/
def IsStageLine (now : Timestamp) (ctx : Context) (told : String × String) (line : Text) : Prop :=
  IsLogLine now ctx "info" "book" told.1 [("status", .text told.2)]
    (List.flatten [" status=", told.2]) line

/-- What is told of a stage by its record. -/
def told (record : StageRecord) : String × String := (record.stage.name, record.status)

section

variable {now : Timestamp} {ctx : Context}

/-- The line of a record tells of its stage. -/
theorem isStageLine_event (record : StageRecord) :
    IsStageLine now ctx (told record) (record.event.line now ctx) := by
  refine Event.isLogLine_line (Logs.done record).isReadable ⟨rfl, rfl, rfl⟩ ?_ ?_
  · have hstatus : Text.joined (Text.ofString record.status) = Text.ofString record.status :=
      Text.isSettled_ofString record.status
    simp only [StageRecord.event, List.map_cons, List.map_nil, told, Json.reread,
      Json.orderedWith, hstatus]
    rfl
  · rw [shownFields_eq [("status", .text record.status)] rfl]
    simp only [List.map_cons, List.map_nil, Event.plain_text]
    rfl

/-- No other line of a shell tells of a stage. -/
theorem not_isStageLine {e : Event} (hlogs : Logs e) (hbook : e.isOfBook = false)
    (told : String × String) : ¬IsStageLine now ctx told (e.line now ctx) := by
  have hreadable := hlogs.isReadable
  cases hlogs with
  | entered dir =>
      exact Event.not_isLogLine ["status"] rfl (by decide) hreadable ⟨rfl, rfl, rfl⟩ (by decide)
        (by decide)
  | dry argv cwd =>
      exact Event.not_isLogLine ["status"] rfl (by decide) hreadable ⟨rfl, rfl, rfl⟩ (by decide)
        (by decide)
  | ran argv cwd r =>
      have hlevel : (Machine.runEvent argv cwd r).level =
          (if r.code = 0 then "info" else "error" : String) := by
        unfold Machine.runEvent
        split <;> rfl
      refine Event.not_isLogLine ["status"] rfl (by decide) hreadable ⟨hlevel, rfl, rfl⟩ ?_ ?_
      · simp only [List.forall_mem_cons, List.not_mem_nil, false_implies, implies_true, and_true]
        refine ⟨by decide, by decide, ?_, by decide⟩
        split <;> decide
      · exact fun h => absurd h.2 (by decide)
  | output argv r =>
      exact Event.not_isLogLine ["status"] rfl (by decide) hreadable ⟨rfl, rfl, rfl⟩ (by decide)
        (by decide)
  | skipped =>
      exact Event.not_isLogLine ["status"] rfl (by decide) hreadable ⟨rfl, rfl, rfl⟩ (by decide)
        (by decide)
  | done record => cases hbook

end

theorem isOfBook_of_mem_events {d : Deed} {e : Event} (he : e ∈ d.events sh) :
    e.isOfBook = false := by
  have hshell : ∀ argv cwd, (dryEvent argv cwd).isOfBook = false := fun _ _ => rfl
  have hrun : ∀ argv cwd r, (Machine.runEvent argv cwd r).isOfBook = false := fun _ _ _ => rfl
  have houtput : ∀ argv r, (Machine.outputEvent argv r).isOfBook = false := fun _ _ => rfl
  simp only [Deed.events, Machine.eventsFor] at he
  split at he
  · split at he <;> simp_all
  · split at he
    · simp only [List.mem_cons] at he
      obtain rfl | he := he
      · exact hrun _ _ _
      · split at he <;> simp_all
    · simp at he

/-- A stage logs events of a shell, and none of them says that a stage is done. -/
theorem exists_events_perform (sh : Shell) (c : Settings) (stage : Stage) (s : Session) :
    ∃ events, ((sh.perform c stage).run s).2.machine.events = s.machine.events ++ events ∧
      ∀ e ∈ events, Logs e ∧ e.isOfBook = false := by
  have hadds := sh.related_adds (p := fun e => Logs e ∧ e.isOfBook = false)
    (fun dir => ⟨.entered dir, rfl⟩) ⟨.skipped, rfl⟩
  obtain ⟨moves, hgains, hmoves⟩ := hadds.perform c stage s
  refine ⟨_, hgains.events, fun e he => ?_⟩
  obtain ⟨move, hmove, he⟩ := List.mem_flatMap.1 he
  cases move with
  | did d => exact ⟨Deed.logs he, isOfBook_of_mem_events he⟩
  | noted e' =>
      cases List.mem_singleton.1 he
      exact hmoves e hmove

/-! ## Stages one after the other -/

/-- How far stages come from a session on: to the end of them, or to one that has a fault. -/
inductive Proceeds (sh : Shell) (c : Config) :
    Session → List Stage → List StagePart → Except Fault (List StageRecord) × Session → Prop where
  | done (s : Session) : Proceeds sh c s [] [] (.ok [], s)
  | failed {s s' : Session} {stage : Stage} {stages : List Stage} {fault : Fault}
      (h : (sh.perform (.ofConfig c) stage).run s = (.error fault, s')) :
      Proceeds sh c s (stage :: stages) [] (.error fault, s')
  | passed {s s₁ s' : Session} {stage : Stage} {stages : List Stage} {record : StageRecord}
      {segment : List Executed} {parts : List StagePart} {outcome : Except Fault (List StageRecord)}
      (h : (sh.perform (.ofConfig c) stage).run s = (.ok record, s₁))
      (hsegment : s₁.history = s.history ++ segment)
      (rest : Proceeds sh c (s₁.logged record.event) stages parts (outcome, s')) :
      Proceeds sh c s (stage :: stages) (⟨record, segment⟩ :: parts)
        (outcome.map (record :: ·), s')

/-- A stage that is done leaves its record, and more of the history. -/
theorem exists_segment {stage : Stage} {record : StageRecord}
    (h : (sh.perform (.ofConfig c) stage).run s = (.ok record, s₁)) :
    ∃ segment, s₁.history = s.history ++ segment ∧ s₁.cwd = s.cwd ∧ record.stage = stage ∧
      Accounts sh s.cwd ⟨record, segment⟩ := by
  obtain ⟨ran, commands, hext, hcourse, hrecord⟩ :=
    @perform_follows sh c stage s _ fun _ => rfl
  rw [h] at hext hcourse hrecord
  obtain ⟨-, hkeys, hcodes, -⟩ := hcourse.of_ok
  have hrecord := hrecord record rfl
  exact ⟨ran, hext.history, hext.cwd, stage_of_recordOf hrecord,
    accounts_of_recordOf hrecord hkeys hcodes⟩

theorem exists_proceeds (sh : Shell) (c : Config) (stages : List Stage) (s : Session) :
    ∃ parts,
      Proceeds sh c s stages parts ((stages.mapM (sh.performLogged (.ofConfig c))).run s) := by
  induction stages generalizing s with
  | nil => exact ⟨[], .done s⟩
  | cons stage stages ih =>
      rw [List.mapM_cons]
      rcases hperform : (sh.perform (.ofConfig c) stage).run s with ⟨fault | record, s₁⟩
      · have hlogged : (sh.performLogged (.ofConfig c) stage).run s = (.error fault, s₁) :=
          Act.run_bind_of_error hperform _
        rw [Act.run_bind_of_error hlogged]
        exact ⟨[], .failed hperform⟩
      · have hlogged : (sh.performLogged (.ofConfig c) stage).run s =
            (.ok record, s₁.logged record.event) := Act.run_bind_of_ok hperform _
        obtain ⟨segment, hsegment, -⟩ := exists_segment hperform
        obtain ⟨parts, hrest⟩ := ih (s₁.logged record.event)
        refine ⟨⟨record, segment⟩ :: parts, ?_⟩
        rw [Act.run_bind_of_ok hlogged]
        rcases hrun : (stages.mapM (sh.performLogged (.ofConfig c))).run (s₁.logged record.event)
          with ⟨fault | records, s'⟩
        · rw [Act.run_bind_of_error hrun]
          exact .passed hperform hsegment (hrun ▸ hrest)
        · rw [Act.run_bind_of_ok hrun]
          exact .passed hperform hsegment (hrun ▸ hrest)

namespace Proceeds

variable {stages : List Stage} {parts : List StagePart}
  {run : Except Fault (List StageRecord) × Session}

/-- The records are those of the first stages, and each accounts for its segment. -/
theorem accounts (h : Proceeds sh c s stages parts run) :
    parts.map (·.record.stage) <+: stages ∧ ∀ p ∈ parts, Accounts sh s.cwd p := by
  induction h with
  | done => simp
  | failed => simp
  | passed hperform hsegment rest ih =>
      obtain ⟨segment, hsegment', hcwd, hstage, haccounts⟩ := exists_segment hperform
      obtain rfl : segment = _ := List.append_cancel_left (hsegment'.symm.trans hsegment)
      obtain ⟨hfront, hall⟩ := ih
      change ∀ p ∈ _, Accounts sh (Session.cwd _) p at hall
      rw [List.map_cons, hstage, List.prefix_cons_inj, List.forall_mem_cons]
      exact ⟨hfront, haccounts, hcwd ▸ hall⟩

/-- The segments follow one another in the history. -/
theorem history (h : Proceeds sh c s stages parts run) :
    ∃ rest, run.2.history = s.history ++ parts.flatMap (·.segment) ++ rest ∧
      ∀ rs, run.1 = .ok rs → rest = [] := by
  induction h with
  | done => exact ⟨[], by simp⟩
  | @failed s _ stage _ _ hperform =>
      obtain ⟨ran, commands, hext, -⟩ :=
        @perform_follows sh c stage s _ fun _ => rfl
      rw [hperform] at hext
      exact ⟨ran, by simpa using hext.history, by simp⟩
  | @passed _ _ _ _ _ record _ _ outcome hperform hsegment rest ih =>
      obtain ⟨last, hlast, hnil⟩ := ih
      refine ⟨last, ?_, ?_⟩
      · simp only [List.flatMap_cons, ← List.append_assoc, ← hsegment]
        exact hlast
      · intro rs hrs
        cases outcome with
        | ok records => exact hnil records rfl
        | error fault => cases hrs

/-- The summary has all the records. -/
theorem records (h : Proceeds sh c s stages parts run) :
    ∀ rs, run.1 = .ok rs → rs = parts.map (·.record) ∧ rs.map (·.stage) = stages := by
  induction h with
  | done => simp
  | failed => simp
  | @passed _ _ _ _ _ record _ _ outcome hperform hsegment rest ih =>
      intro rs hrs
      cases outcome with
      | error fault => cases hrs
      | ok records =>
          cases hrs
          obtain ⟨hrecords, hstages⟩ := ih records rfl
          obtain ⟨-, -, -, hstage, -⟩ := exists_segment hperform
          exact ⟨by rw [List.map_cons, ← hrecords], by rw [List.map_cons, hstage, hstages]⟩

/-- Each stage that is done is logged, once and in order, and else only events of a shell are. -/
theorem events (h : Proceeds sh c s stages parts run) :
    ∃ events, run.2.machine.events = s.machine.events ++ events ∧
      events.filter Event.isOfBook = parts.map (·.record.event) ∧ ∀ e ∈ events, Logs e := by
  have hkeeps := exists_events_perform sh (.ofConfig c)
  have hfilter {events : List Event} (hnone : ∀ e ∈ events, Logs e ∧ e.isOfBook = false) :
      events.filter Event.isOfBook = [] :=
    List.filter_eq_nil_iff.2 fun e he => by simp [(hnone e he).2]
  induction h with
  | done => exact ⟨[], by simp⟩
  | @failed s _ stage _ _ hperform =>
      obtain ⟨events, hevents, hnone⟩ := hkeeps stage s
      rw [hperform] at hevents
      exact ⟨events, hevents, hfilter hnone, fun e he => (hnone e he).1⟩
  | @passed s _ _ stage _ record _ _ _ hperform hsegment rest ih =>
      obtain ⟨events, hevents, hnone⟩ := hkeeps stage s
      rw [hperform] at hevents
      obtain ⟨later, hlater, hbook, hlogs⟩ := ih
      have hrecord : record.event.isOfBook = true := rfl
      refine ⟨events ++ record.event :: later, ?_, ?_, ?_⟩
      · dsimp only at hlater hevents ⊢
        simp [hlater, Session.logged, Machine.logged, hevents]
      · rw [List.filter_append, hfilter hnone, List.filter_cons_of_pos hrecord, hbook]
        rfl
      · intro e he
        rcases List.mem_append.1 he with he | he
        · exact (hnone e he).1
        · rcases List.mem_cons.1 he with rfl | he
          · exact .done record
          · exact hlogs e he

end Proceeds

/-! ## The pipeline -/

/-- What the stages of a run that are done say about the run from a fresh session. -/
structure Summarizes (sh : Shell) (s : Session) (parts : List StagePart)
    (run : Except Fault (List StageRecord) × Session) : Prop where
  /-- The stages that are done are the first ones, in order. -/
  stages : parts.map (·.record.stage) <+: Stage.all
  /-- Their segments follow one another in the history. -/
  history : parts.flatMap (·.segment) <+: run.2.history
  /-- Each record accounts for its segment. -/
  accounts : ∀ p ∈ parts, Accounts sh s.cwd p
  /-- A run with a summary has a record for each stage in it, and the segments are all of the
  history.  Its upload is the last command. -/
  returns : ∀ rs, run.1 = .ok rs → rs = parts.map (·.record) ∧ rs.map (·.stage) = Stage.all ∧
    run.2.history = parts.flatMap (·.segment) ∧
    ∀ r ∈ rs, r.stage = .publishSite → r.status = "ok" → ∃ place e,
      r.details = [(Text.ofString "destination", place)] ∧ run.2.history.getLast? = some e ∧
      e.argv.getLast? = some place
  /-- Unless the run is quiet, its log has a line for each stage that is done, in their order, and
  no other line tells of a stage. -/
  told (now : Timestamp) : ∃ lines : List Text,
    Bindery.log now sh.context run.2.machine.events =
      Bindery.log now sh.context s.machine.events ++ Text.ofLines lines ∧
    TellsOf (IsStageLine now sh.context) lines
      (if sh.context.quiet then [] else parts.map fun p => Shell.told p.record)

theorem isShown_stageEvent (ctx : Context) (record : StageRecord) :
    record.event.isShown ctx = !ctx.quiet := by
  have hdebug : (record.event.level == Text.ofString "debug") = false := rfl
  have hinfo : (record.event.level == Text.ofString "info") = true := rfl
  simp [Event.isShown, hdebug, hinfo]

/-- The summary of the pipeline matches what was done.

Whatever the run comes to, there is a record for each stage that is done, and the records
account for the history and for what the log says. -/
theorem runBook_summarizes {start : Option Path} {m : Machine} (hopen : sh.openAt start m = .ok s) :
    ∃ parts, Proceeds sh c s Stage.all parts ((sh.runBook (.ofConfig c)).run s) ∧
      Summarizes sh s parts ((sh.runBook (.ofConfig c)).run s) := by
  obtain ⟨parts, h⟩ := exists_proceeds sh c Stage.all s
  change Proceeds sh c s Stage.all parts ((sh.runBook (.ofConfig c)).run s) at h
  have hfresh : s.history = [] := by rw [eq_of_openAt hopen]
  obtain ⟨rest, hhistory, hnil⟩ := h.history
  rw [hfresh, List.nil_append] at hhistory
  obtain ⟨hstages, haccounts⟩ := h.accounts
  refine ⟨parts, h, hstages, ⟨rest, hhistory.symm⟩, haccounts, ?_, ?_⟩
  · intro rs hrs
    obtain ⟨hrecords, hall⟩ := h.records rs hrs
    have hended : ((sh.runBook (.ofConfig c)).run s).2.history = parts.flatMap (·.segment) := by
      rw [hhistory, hnil rs hrs, List.append_nil]
    refine ⟨hrecords, hall, hended, fun r hr hstage hok => ?_⟩
    have hcompleted := sh.runBook_completed (c := c) (s := s) (Prod.ext hrs rfl)
    cases href : sh.context.ref? with
    | none =>
        simp [hcompleted.skipped href hr hstage, StageRecord.status] at hok
    | some ref =>
        obtain ⟨place, -, huploaded⟩ := hcompleted.uploaded href
        obtain ⟨e, hlast, hargv⟩ := huploaded.history
        exact ⟨place, e, by rw [huploaded.record r hr hstage], hlast, hargv⟩
  · intro now
    obtain ⟨events, hevents, hbook, hlogs⟩ := h.events
    have hshown : (parts.map (·.record.event)).filter (Event.isShown sh.context) =
        if sh.context.quiet then [] else parts.map (·.record.event) := by
      rw [List.filter_map]
      cases hquiet : sh.context.quiet <;> simp [Function.comp_def, isShown_stageEvent, hquiet]
    refine ⟨(events.filter (Event.isShown sh.context)).map (Event.line now sh.context), ?_,
      tellsOf_of_filter Event.isOfBook _ ?_ ?_⟩
    · rw [hevents, log_append, log_eq_ofLines now sh.context events]
    · rw [List.filter_comm, hbook, hshown]
      cases sh.context.quiet with
      | true => exact .nil
      | false =>
          simp only [Bool.false_eq_true, if_false, List.forall₂_map_left_iff,
            List.forall₂_map_right_iff]
          exact List.forall₂_same.2 fun p _ => isStageLine_event p.record
    · intro e he hkind told
      exact not_isStageLine (hlogs e (List.mem_filter.1 he).1) hkind told

/-- A dry shell that knows no ref and is not under continuous integration. -/
def localShell : Shell :=
  { pluginlessShell with
    context := { pluginlessShell.context with dryRun := true, ci := false, refName := none } }

/-- A run that stops when the plugins of the book cannot be installed, and one that skips two
stages. -/
theorem runBook_summarizes_of_samples :
    (∃ parts, Summarizes pluginlessShell { cwd := .ofNames ["srv", "book"] } parts
        ((pluginlessShell.runBook (.ofConfig {})).run { cwd := .ofNames ["srv", "book"] }) ∧
      parts.map (·.record.event.action) =
        ["print-versions", "install-toolchain", "patch-ci-dependency"].map Text.ofString) ∧
    ∃ parts, Summarizes localShell { cwd := .ofNames ["srv", "book"] } parts
        ((localShell.runBook (.ofConfig {})).run { cwd := .ofNames ["srv", "book"] }) ∧
      parts.map (·.record.status) = ["ok", "ok", "skipped", "ok", "skipped"] := by
  have hopen : pluginlessShell.openAt none {} = .ok { cwd := .ofNames ["srv", "book"] } := rfl
  have hopen' : localShell.openAt none {} = .ok { cwd := .ofNames ["srv", "book"] } := rfl
  constructor
  · obtain ⟨parts, h, hsummarizes⟩ := runBook_summarizes (c := {}) hopen
    obtain ⟨events, hevents, hbook, -⟩ := h.events
    refine ⟨parts, hsummarizes, ?_⟩
    have hactions : parts.map (·.record.event.action) =
        (events.filter Event.isOfBook).map (·.action) := by rw [hbook, List.map_map]; rfl
    rw [List.nil_append] at hevents
    rw [hactions, ← hevents]
    decide +kernel
  · obtain ⟨parts, h, hsummarizes⟩ := runBook_summarizes (c := {}) hopen'
    refine ⟨parts, hsummarizes, ?_⟩
    rcases hrun : (localShell.runBook (.ofConfig {})).run { cwd := .ofNames ["srv", "book"] } with
      ⟨fault | rs, s'⟩
    · have hok : ((localShell.runBook (.ofConfig {})).run
          { cwd := .ofNames ["srv", "book"] }).1.toOption.isSome = true := by decide +kernel
      rw [hrun] at hok
      cases hok
    · obtain ⟨hrecords, -⟩ := hsummarizes.returns rs (by rw [hrun])
      have hstatus : (((localShell.runBook (.ofConfig {})).run
          { cwd := .ofNames ["srv", "book"] }).1.toOption.getD []).map StageRecord.status =
            ["ok", "ok", "skipped", "ok", "skipped"] := by decide +kernel
      rw [hrun, hrecords] at hstatus
      exact (List.map_map ..).symm.trans hstatus

end Shell
end Bindery
