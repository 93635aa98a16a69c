import Bindery.Proofs.Pipeline.DryRun
import Bindery.Proofs.Shell.Scope
import Bindery.Proofs.Text.Blank
import Mathlib.Data.List.Forall2

/-!
# The upload at the end of the pipeline

A run of the pipeline with records has one for each stage (`Completed.stages`).  If no ref is
known, the record of the last stage says that it was skipped (`Completed.skipped`).  Otherwise
the last word of the last command is the place of the book, and the record names it
(`Completed.uploaded`).

The ref of a context that is made from options and an environment is never blank, so its book
always has a place.  `publishSite_ne_blankRef` and `uploadFault_of_publishSite` say what the
last stage can come to then.
-/

namespace Bindery

/-! ## Refs of contexts -/

/-- The ref of a context that is made for a run is not blank. -/
theorem Context.trim_ref_ne_nil {o : RunOptions} {e : Environment} {now : Timestamp} {root : Path}
    {ref : Text} (h : (Context.make o e now root).ref? = some ref) : Text.trim ref ≠ [] := by
  obtain ⟨hname, hne⟩ := Option.filter_eq_some_iff.1 h
  have hrefName : e.refName = some ref := hname
  simp only [Environment.refName] at hrefName
  split at hrefName
  · cases hrefName
  · cases hrefName
    rw [Text.trim_trim]
    simpa using hne

/-- A ref that is not blank has a place. -/
theorem Config.destination?_of_ne_nil {ref : Text} (h : Text.trim ref ≠ []) (c : Config) :
    c.destination? ref = some (publicDirectory c.bucket c.product (Text.trim ref)) := by
  rw [Config.destination?, if_neg (by simpa using h)]

namespace Shell

variable {sh : Shell} {c : Config} {s s₁ : Session} {rs : List StageRecord}

/-! ## Records -/

/-- A list of results has one for each element. -/
theorem forall₂_of_mapM {ε α β : Type} {f : α → Except ε β} {as : List α} {bs : List β}
    (h : as.mapM f = .ok bs) : List.Forall₂ (fun a b => f a = .ok b) as bs := by
  induction as generalizing bs with
  | nil =>
      cases h
      exact .nil
  | cons a as ih =>
      rw [List.mapM_cons] at h
      cases ha : f a with
      | error fault =>
          rw [ha] at h
          cases h
      | ok b =>
          cases has : as.mapM f with
          | error fault =>
              rw [ha, has] at h
              cases h
          | ok bs' =>
              rw [ha, has] at h
              cases h
              exact .cons ha (ih has)

theorem stage_of_recordOf {start : Path} {base : Text} {stage : Stage} {record : StageRecord}
    (h : sh.recordOf c start base stage = .ok record) : record.stage = stage := by
  cases stage with
  | printVersions | installToolchain =>
      cases h
      rfl
  | patchCiDependency =>
      rw [recordOf] at h
      split at h <;>
        · cases h
          rfl
  | buildSite =>
      rw [recordOf] at h
      cases hdir : sh.directory start (.parse c.docsDir) with
      | error fault =>
          rw [hdir] at h
          cases h
      | ok dir =>
          rw [hdir] at h
          cases h
          rfl
  | publishSite =>
      rw [recordOf] at h
      split at h
      · cases h
        rfl
      · split at h
        · cases h
          rfl
        · cases h

section

variable {start : Path} {base : Text} {stages : List Stage}

theorem map_stage_of_forall₂
    (h : List.Forall₂ (fun stage record => sh.recordOf c start base stage = .ok record) stages rs) :
    rs.map StageRecord.stage = stages := by
  induction h with
  | nil => rfl
  | cons hrecord _ ih => rw [List.map_cons, stage_of_recordOf hrecord, ih]

theorem recordOf_of_forall₂
    (h : List.Forall₂ (fun stage record => sh.recordOf c start base stage = .ok record) stages rs)
    {record : StageRecord} (hmem : record ∈ rs) :
    sh.recordOf c start base record.stage = .ok record := by
  induction h with
  | nil => cases hmem
  | cons hrecord _ ih =>
      rcases List.mem_cons.1 hmem with rfl | hmem
      · rw [stage_of_recordOf hrecord, hrecord]
      · exact ih hmem

end

/-- There is one record for each stage. -/
theorem Completed.stages (h : Completed sh c s rs s₁) : rs.map StageRecord.stage = Stage.all :=
  map_stage_of_forall₂ (forall₂_of_mapM h.records)

theorem Completed.recordOf_of_mem (h : Completed sh c s rs s₁) {record : StageRecord}
    (hmem : record ∈ rs) :
    sh.recordOf c s.cwd (sh.baseFrom c s.cwd s.machine.commands) record.stage = .ok record :=
  recordOf_of_forall₂ (forall₂_of_mapM h.records) hmem

/-! ## The last stage -/

/-- Without a ref the last stage is skipped. -/
theorem Completed.skipped (h : Completed sh c s rs s₁) (href : sh.context.ref? = none)
    {record : StageRecord} (hmem : record ∈ rs) (hstage : record.stage = .publishSite) :
    record = { stage := .publishSite, skipped := some (Config.skipMessage : Text) } := by
  have hrecord := h.recordOf_of_mem hmem
  rw [hstage] at hrecord
  simp only [recordOf, href] at hrecord
  cases hrecord
  rfl

/-- The plan ends with the upload if there is a ref. -/
theorem plan_eq_upload {ref : Text} (href : sh.context.ref? = some ref) (start : Path)
    (base : Text) :
    sh.plan c start base =
      [.printVersions, .installToolchain, .patchCiDependency, .buildSite].flatMap
        (sh.stagePlan c start base) ++
          [(uploadOf c ref).map fun argv => ⟨argv, start, none⟩] := by
  have hlast : sh.stagePlan c start base .publishSite =
      [(uploadOf c ref).map fun argv => ⟨argv, start, none⟩] := by simp only [stagePlan, href]
  rw [← hlast, ← List.flatMap_singleton (sh.stagePlan c start base) .publishSite,
    ← List.flatMap_append]
  rfl

/-- What a run with records did with the book of a ref, in terms of its place. -/
structure Uploaded (sh : Shell) (place : Text) (rs : List StageRecord) (s₁ : Session) : Prop where
  /-- The record of the upload names the place. -/
  record : ∀ record ∈ rs, record.stage = .publishSite →
    record = { stage := .publishSite, details := [("destination", place)] }
  /-- The place is the last word of the last command. -/
  history : ∃ e, s₁.history.getLast? = some e ∧ e.argv.getLast? = some place
  /-- The last command that is started is the upload. -/
  commands : sh.context.dryRun = false →
    ∃ command, s₁.machine.commands.getLast? = some command ∧
      command.argv.getLast? = some (.text place)

/-- With a ref the last command uploads the book to its place. -/
theorem Completed.uploaded (h : Completed sh c s rs s₁) {ref : Text}
    (href : sh.context.ref? = some ref) :
    ∃ place, c.destination? ref = some place ∧ Uploaded sh place rs s₁ := by
  obtain ⟨ps, hplan, hkeys⟩ := h.plan
  have hsplit := hplan.symm.trans (plan_eq_upload href _ _)
  obtain ⟨front, last, rfl, -, hlast⟩ := List.map_eq_append_iff.1 hsplit
  obtain ⟨p, rfl, hp⟩ := List.map_eq_singleton_iff.1 hlast
  cases hplace : c.destination? ref with
  | none =>
      rw [uploadOf, Config.uploadCommand?, hplace] at hp
      cases hp
  | some place =>
      rw [uploadOf, Config.uploadCommand?, hplace] at hp
      have hargv : p.argv.getLast? = some place := by
        rw [Except.ok.inj hp]
        rfl
      refine ⟨place, rfl, ?_, ?_, fun live => ?_⟩
      · intro record hmem hstage
        have hrecord := h.recordOf_of_mem hmem
        rw [hstage] at hrecord
        simp only [recordOf, href, hplace] at hrecord
        cases hrecord
        rfl
      · have hkey : (s₁.history.getLast?).map Executed.key = some p.key := by
          rw [← List.getLast?_map]
          exact (congrArg List.getLast? hkeys).trans (by simp)
        obtain ⟨e, he, hekey⟩ := Option.map_eq_some_iff.1 hkey
        exact ⟨e, he, by rw [show e.argv = p.argv from congrArg Prod.fst hekey, hargv]⟩
      · refine ⟨sh.command p, ?_, ?_⟩
        · rw [h.commands, hplan, sh.startedBy_of_live live]
          simp
        · show (p.argv.map Value.text).getLast? = _
          rw [List.getLast?_map, hargv]
          rfl

/-! ## What the last stage can come to -/

/-- The faults of the last stage are those of its command and of what the settings give for the
ref. -/
theorem allowed_of_publishSite (allowed : Fault → Prop) {c : Settings} {fault : Fault}
    (hrun : ∀ ref words fault, sh.context.ref? = some ref →
      c.uploadCommand (.text ref) = .ok words → ((sh.run words).run s).1 = .error fault →
      allowed fault)
    (hcommand : ∀ ref fault, sh.context.ref? = some ref →
      c.uploadCommand (.text ref) = .error fault → allowed (.unusable fault))
    (hplace : ∀ ref fault, sh.context.ref? = some ref →
      c.destination (.text ref) = .error fault → allowed (.unusable fault))
    (h : ((sh.publishSite c).run s).1 = .error fault) : allowed fault := by
  unfold publishSite at h
  cases href : sh.context.ref? with
  | none =>
      rw [href] at h
      cases h
  | some ref =>
      rw [href] at h
      dsimp only at h
      cases hwords : c.uploadCommand (.text ref) with
      | error fault' =>
          rw [hwords] at h
          cases h
          exact hcommand ref fault' href hwords
      | ok words =>
          rw [hwords, use, pure_bind] at h
          rcases hran : (sh.run words).run s with ⟨fault' | r, s'⟩
          · rw [Act.run_bind_of_error hran] at h
            cases h
            exact hrun ref words _ href hwords (by rw [hran])
          · rw [Act.run_bind_of_ok hran] at h
            cases hd : c.destination (.text ref) with
            | error fault' =>
                rw [hd] at h
                cases h
                exact hplace ref fault' href hd
            | ok place =>
                rw [hd] at h
                cases h

/-- A command does not fail for a setting. -/
theorem run_ne_unusable (words : List Value) (fault : Settings.Fault) :
    ((sh.run words).run s).1 ≠ .error (.unusable fault) := by
  obtain ⟨-, -, answer, -, houtcome⟩ := sh.run_makes s words
  rw [houtcome, Deed.outcome]
  cases answer with
  | error fault => simp
  | ok r =>
      dsimp only
      split <;> simp

/-- Why the upload of a ref has no record: its command fails, or the command has no result and
raises what the system says in its place. -/
def UploadFault (sh : Shell) (c : Config) (s : Session) (fault : Fault) : Prop :=
  ∃ ref argv, sh.context.ref? = some ref ∧ c.uploadCommand? ref = some argv ∧
    ((∃ f, fault = .commandFailed f) ∨
      ∃ f, fault = .noResult f ∧
        (s.machine.run sh.world sh.context argv s.cwd false sh.seconds).1 = .error f)

/-- A command fails in a live run only: it ends with another exit code than 0, or it has no
result. -/
theorem fault_of_run {argv : List Text} {fault : Fault}
    (h : ((sh.run (argv.map .text)).run s).1 = .error fault) :
    sh.context.dryRun = false ∧ ((∃ f, fault = .commandFailed f) ∨
      ∃ f, fault = .noResult f ∧
        (s.machine.run sh.world sh.context argv s.cwd false sh.seconds).1 = .error f) := by
  have hrun := sh.run_executeWords s (d := ⟨argv.map .text, s.cwd, false,
    (sh.respond (argv.map .text) s.cwd false s.machine).1⟩) rfl rfl
  rw [run, hrun] at h
  dsimp only [Deed.outcome] at h
  cases dry : sh.context.dryRun with
  | true =>
      rw [respond, dry, if_pos rfl, Value.texts?_map_text] at h
      cases h
  | false =>
      refine ⟨rfl, ?_⟩
      rw [respond, dry, if_neg Bool.false_ne_true, Machine.runWords, Value.texts?_map_text] at h
      dsimp only at h
      cases hanswer : (s.machine.run sh.world sh.context argv s.cwd false sh.seconds).1 with
      | error f =>
          rw [hanswer] at h
          cases h
          exact .inr ⟨f, rfl, rfl⟩
      | ok r =>
          rw [hanswer] at h
          dsimp only at h
          split at h
          · cases h
          · cases h
            exact .inl ⟨_, rfl⟩

section

variable {ref : Text} {fault : Settings.Fault}

theorem ne_blankRef_of_textFor {operation : String} {v : Value}
    (h : Settings.textFor operation v = .error fault) : fault ≠ .blankRef := by
  cases v <;> cases h <;> simp

/-- A ref that is not blank is no fault of the place, whatever the settings are. -/
theorem ne_blankRef_of_destination {c : Settings} (href : Text.trim ref ≠ [])
    (h : c.destination (.text ref) = .error fault) : fault ≠ .blankRef := by
  change (if (Text.trim ref).isEmpty then _ else _) = _ at h
  rw [if_neg (by simpa using href)] at h
  cases hbucket : Settings.textFor "rstrip" (c.value .bucket) with
  | error fault' =>
      rw [hbucket] at h
      cases h
      exact ne_blankRef_of_textFor hbucket
  | ok bucket =>
      rw [hbucket] at h
      cases h

theorem ne_blankRef_of_uploadCommand {c : Settings} (href : Text.trim ref ≠ [])
    (h : c.uploadCommand (.text ref) = .error fault) : fault ≠ .blankRef := by
  change (Settings.textFor "rstrip" (c.value .outputDir) >>= _) = _ at h
  cases hdirectory : Settings.textFor "rstrip" (c.value .outputDir) with
  | error fault' =>
      rw [hdirectory] at h
      cases h
      exact ne_blankRef_of_textFor hdirectory
  | ok directory =>
      rw [hdirectory] at h
      change (c.destination (.text ref) >>= _) = _ at h
      cases hplace : c.destination (.text ref) with
      | error fault' =>
          rw [hplace] at h
          cases h
          exact ne_blankRef_of_destination href hplace
      | ok place =>
          rw [hplace] at h
          cases h

end

section

variable {o : RunOptions} {e : Environment} {now : Timestamp} {root : Path}

/-- In a context that is made for a run no ref is blank where the book is uploaded, whatever
the settings are. -/
theorem publishSite_ne_blankRef (hcontext : sh.context = .make o e now root) (c : Settings)
    (s : Session) : ((sh.publishSite c).run s).1 ≠ .error (.unusable .blankRef) := by
  have htrim {ref : Text} (href : sh.context.ref? = some ref) : Text.trim ref ≠ [] :=
    Context.trim_ref_ne_nil (hcontext ▸ href)
  intro h
  refine allowed_of_publishSite (· ≠ .unusable .blankRef) ?_ ?_ ?_ h rfl
  · rintro ref words fault href hwords hrun rfl
    exact run_ne_unusable words .blankRef hrun
  · rintro ref fault href hcommand ⟨⟩
    exact ne_blankRef_of_uploadCommand (htrim href) hcommand rfl
  · rintro ref fault href hplace ⟨⟩
    exact ne_blankRef_of_destination (htrim href) hplace rfl

/-- In such a context the last stage ends well, or its command fails or has no result. -/
theorem uploadFault_of_publishSite (hcontext : sh.context = .make o e now root) {fault : Fault}
    (h : ((sh.publishSite (.ofConfig c)).run s).1 = .error fault) :
    sh.context.dryRun = false ∧ UploadFault sh c s fault := by
  have hplace {ref : Text} (href : sh.context.ref? = some ref) :=
    Config.destination?_of_ne_nil (Context.trim_ref_ne_nil (hcontext ▸ href)) c
  refine allowed_of_publishSite (fun fault => sh.context.dryRun = false ∧ UploadFault sh c s fault)
    ?_ ?_ ?_ h
  · intro ref words fault href hwords hrun
    have hcommand : ∃ argv, c.uploadCommand? ref = some argv := by
      rw [Config.uploadCommand?, hplace href]
      exact ⟨_, rfl⟩
    obtain ⟨argv, hargv⟩ := hcommand
    rw [Settings.uploadCommand_ofConfig, hargv] at hwords
    cases hwords
    obtain ⟨live, hfault⟩ := fault_of_run hrun
    exact ⟨live, ref, argv, href, hargv, hfault⟩
  · intro ref fault href hcommand
    rw [Settings.uploadCommand_ofConfig, Config.uploadCommand?, hplace href] at hcommand
    cases hcommand
  · intro ref fault href hdestination
    rw [Settings.destination_ofConfig, hplace href] at hdestination
    cases hdestination

end

end Shell
end Bindery
