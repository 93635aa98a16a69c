import Bindery.Proofs.Pipeline.Plan

/-!
# Dry runs of the pipeline

A dry run goes through the plan of the pipeline and starts nothing.  Where the package
manager installs is not asked for, and the plan is made as if the answer were
`Shell.dryCapture`.

If a live run has records and the package manager gives this answer, the dry run has the
same records, and the same commands in its history (`runBook_dry`).  For any other answer
the two may differ in the directory where the dependency is pinned, and in nothing else
(`keys_split`, `withoutPath_records`).
-/

namespace Bindery

/-- The record without the directory where the dependency is pinned. -/
def StageRecord.withoutPath (r : StageRecord) : StageRecord :=
  { r with details := r.details.filter fun d => !(r.stage = .patchCiDependency && d.1 == "path") }

/-- The words of a command that is started, with its directory. -/
def Command.key (c : Command) : List Value × Path := (c.argv, c.cwd)

/-- The commands of a history with their directories. -/
def Session.keys (s : Session) : List (List Text × Path) := s.history.map Executed.key

namespace Shell

theorem keys_of_openAt {sh : Shell} {start : Option Path} {m : Machine} {s : Session}
    (h : sh.openAt start m = .ok s) : s.keys = [] := by
  rw [eq_of_openAt h]
  rfl

/-- A dry shell for the run that another one does. -/
structure Rehearses (sh' sh : Shell) : Prop where
  dryRun : sh'.context.dryRun = true
  files : sh'.world.files = sh.world.files
  current : sh'.world.current = sh.world.current
  root : sh'.context.root = sh.context.root
  ci : sh'.context.ci = sh.context.ci
  refName : sh'.context.refName = sh.context.refName

/-- The shell with its commands only logged. -/
def dry (sh : Shell) : Shell := { sh with context := { sh.context with dryRun := true } }

theorem dry_rehearses (sh : Shell) : sh.dry.Rehearses sh := ⟨rfl, rfl, rfl, rfl, rfl, rfl⟩

/-- The package manager says that it installs where dry runs take it to. -/
def InstallsAsUsual (sh : Shell) (c : Config) (s : Session) : Prop :=
  sh.context.ci = true → sh.baseFrom c s.cwd s.machine.commands = (dryCapture : Text)

variable (sh : Shell) {sh' : Shell} {c : Config}

/-! ## Plans of dry shells -/

namespace Rehearses

theorem directory (h : sh'.Rehearses sh) : sh'.directory = sh.directory := by
  funext start path
  rw [Shell.directory, Shell.directory, h.files, h.current]

theorem plan (h : sh'.Rehearses sh) : sh'.plan = sh.plan := by
  funext c start base
  unfold Shell.plan
  congr 1
  funext stage
  cases stage <;> simp only [stagePlan, h.directory, h.ci, Context.ref?, h.refName]

theorem records (h : sh'.Rehearses sh) : sh'.records = sh.records := by
  funext c start base
  unfold Shell.records
  congr 1
  funext stage
  cases stage <;> simp only [recordOf, h.directory, h.ci, Context.ref?, h.refName]

theorem baseFrom (h : sh'.Rehearses sh) (start : Path) (before : List Command) :
    sh'.baseFrom c start before = (dryCapture : Text) := by
  simp only [Shell.baseFrom, answer, h.dryRun, if_true]
  decide

theorem openAt {start : Option Path} {m : Machine} {s : Session} (h : sh'.Rehearses sh)
    (hopen : sh.openAt start m = .ok s) (m' : Machine) :
    sh'.openAt start m' = .ok { cwd := s.cwd, machine := m' } := by
  have hsame : sh'.openAt start m' = (sh.openAt start m).map ({ · with machine := m' }) := by
    unfold Shell.openAt
    rw [h.files, h.current, h.root]
    cases sh.world.files.resolve sh.world.current (start.getD sh.context.root) <;> rfl
  rw [hsame, hopen, eq_of_openAt hopen]
  rfl

end Rehearses

/-! ## What depends on the place where the package manager installs -/

theorem stagePlan_congr {start : Path} {base base' : Text} (h : sh.context.ci = true → base = base')
    (stage : Stage) : sh.stagePlan c start base stage = sh.stagePlan c start base' stage := by
  cases stage with
  | patchCiDependency =>
      cases hci : sh.context.ci with
      | false => simp only [stagePlan, hci, Bool.false_eq_true, if_false]
      | true => rw [h hci]
  | _ => rfl

theorem recordOf_congr {start : Path} {base base' : Text} (h : sh.context.ci = true → base = base')
    (stage : Stage) : sh.recordOf c start base stage = sh.recordOf c start base' stage := by
  cases stage with
  | patchCiDependency =>
      cases hci : sh.context.ci with
      | false => simp only [recordOf, hci, Bool.false_eq_true, if_false]
      | true => rw [h hci]
  | _ => rfl

theorem plan_congr {start : Path} {base base' : Text} (h : sh.context.ci = true → base = base') :
    sh.plan c start base = sh.plan c start base' := by
  unfold plan
  rw [funext (sh.stagePlan_congr h)]

theorem records_congr {start : Path} {base base' : Text}
    (h : sh.context.ci = true → base = base') :
    sh.records c start base = sh.records c start base' := by
  unfold records
  rw [funext (sh.recordOf_congr h)]

/-- The commands before the one that pins the dependency. -/
def keysBeforePin (c : Config) (start : Path) : List (List Text × Path) :=
  [([c.npm, "version"], start), ([c.npm, "install", "-g", c.toolchainPackage], start),
    (baseQuery c, start)]

/-- What the plan does behind the command that pins the dependency. -/
def planBehindPin (c : Config) (start : Path) : Plan :=
  [.buildSite, .publishSite].flatMap (sh.stagePlan c start [])

/-- Only the directory of one command depends on where the package manager installs. -/
theorem keys_plan (hci : sh.context.ci = true) (start : Path) (base : Text) :
    (sh.plan c start base).keys =
      (keysBeforePin c start).map .ok ++
        ((sh.directory start (modulesBelow c base)).map (pinCommand c, ·) ::
          Plan.keys (sh.planBehindPin c start)) := by
  have hpin : sh.stagePlan c start base .patchCiDependency = .ok ⟨baseQuery c, start, some base⟩ ::
      planIn (sh.directory start (modulesBelow c base)) [pinCommand c] := by
    rw [stagePlan, if_pos hci]
  have hplan : sh.plan c start base =
      sh.stagePlan c start base .printVersions ++ (sh.stagePlan c start base .installToolchain ++
        (sh.stagePlan c start base .patchCiDependency ++ sh.planBehindPin c start)) := rfl
  rw [hplan, hpin]
  cases sh.directory start (modulesBelow c base) <;> rfl

/-- Only the directory in one record depends on where the package manager installs. -/
theorem withoutPath_recordOf (start : Path) (base base' : Text) (stage : Stage) :
    (sh.recordOf c start base stage).map StageRecord.withoutPath =
      (sh.recordOf c start base' stage).map StageRecord.withoutPath := by
  cases stage with
  | patchCiDependency =>
      simp only [recordOf]
      split
      · rfl
      · rfl
  | _ => rfl

theorem withoutPath_mapM {f f' : Stage → Except Fault StageRecord} {stages : List Stage}
    (hf : ∀ stage, (f stage).map StageRecord.withoutPath = (f' stage).map StageRecord.withoutPath) :
    (stages.mapM f).map (List.map StageRecord.withoutPath) =
      (stages.mapM f').map (List.map StageRecord.withoutPath) := by
  induction stages with
  | nil => rfl
  | cons stage stages ih =>
      have h := hf stage
      rw [List.mapM_cons, List.mapM_cons]
      cases hr : f stage <;> cases hr' : f' stage <;> rw [hr, hr'] at h
      · exact congrArg Except.error (Except.error.inj h)
      · cases h
      · cases h
      · cases hrs : stages.mapM f <;> cases hrs' : stages.mapM f' <;> rw [hrs, hrs'] at ih
        · exact congrArg Except.error (Except.error.inj ih)
        · cases ih
        · cases ih
        · refine congrArg Except.ok ?_
          rw [List.map_cons, List.map_cons, Except.ok.inj h, Except.ok.inj ih]

theorem withoutPath_records (start : Path) (base base' : Text) :
    (sh.records c start base).map (List.map StageRecord.withoutPath) =
      (sh.records c start base').map (List.map StageRecord.withoutPath) :=
  withoutPath_mapM (sh.withoutPath_recordOf start base base')

/-! ## Runs -/

/-- What a run of the pipeline with records leaves, in terms of its plan. -/
structure Completed (sh : Shell) (c : Config) (s : Session) (rs : List StageRecord)
    (s' : Session) : Prop where
  records : sh.records c s.cwd (sh.baseFrom c s.cwd s.machine.commands) = .ok rs
  cwd : s'.cwd = s.cwd
  plan : ∃ ps : List Planned,
    sh.plan c s.cwd (sh.baseFrom c s.cwd s.machine.commands) = ps.map .ok ∧
      s'.keys = s.keys ++ ps.map Planned.key
  commands : s'.machine.commands = s.machine.commands ++
    sh.startedBy (sh.plan c s.cwd (sh.baseFrom c s.cwd s.machine.commands))

/-- Lists are equal if they are equal as lists of results. -/
theorem eq_of_map_ok {ε α : Type} {l l' : List α}
    (h : l.map (Except.ok : α → Except ε α) = l'.map .ok) : l = l' :=
  (List.map_inj_right fun _ _ => Except.ok.inj).1 h

variable {s s₁ t t₁ : Session} {rs rs' : List StageRecord}

theorem keys_map_ok (ps : List Planned) :
    Plan.keys (ps.map .ok) = (ps.map Planned.key).map .ok := by
  rw [Plan.keys, List.map_map, List.map_map]
  rfl

/-- A command as it is started, without the rest of it. -/
def startedKey (k : List Text × Path) : List Value × Path := (k.1.map .text, k.2)

theorem startedBy_of_live (live : sh.context.dryRun = false) (ps : List Planned) :
    sh.startedBy (ps.map .ok) = ps.map sh.command := by
  induction ps with
  | nil => rfl
  | cons p ps ih =>
      have hstarted : sh.started p = [sh.command p] := by simp [started, live]
      rw [List.map_cons, List.map_cons, ← ih, startedBy, List.flatMap_cons]
      exact congrArg (· ++ sh.startedBy (ps.map .ok)) hstarted

/-- The commands that a live run starts are those of its history. -/
theorem Completed.started (h : Completed sh c s rs s₁) (live : sh.context.dryRun = false) :
    ∃ commands keys, s₁.machine.commands = s.machine.commands ++ commands ∧
      s₁.keys = s.keys ++ keys ∧ commands.map Command.key = keys.map startedKey := by
  obtain ⟨ps, hplan, hkeys⟩ := h.plan
  refine ⟨sh.startedBy (ps.map .ok), ps.map Planned.key, hplan ▸ h.commands, hkeys, ?_⟩
  rw [sh.startedBy_of_live live, List.map_map, List.map_map]
  rfl

theorem runBook_completed (h : (sh.runBook (.ofConfig c)).run s = (.ok rs, s₁)) :
    Completed sh c s rs s₁ := by
  obtain ⟨ran, commands, hext, hcourse, hrecords⟩ := sh.runBook_follows (c := c) s
  rw [h] at hext hcourse hrecords
  obtain ⟨⟨ps, hplan⟩, hkeys, -, hcommands⟩ := hcourse.of_ok
  refine ⟨hrecords rs rfl, hext.cwd, ⟨ps, hplan, ?_⟩, hcommands ▸ hext.commands⟩
  have hran : ran.map Executed.key = ps.map Planned.key := by
    rw [hplan, keys_map_ok] at hkeys
    exact eq_of_map_ok ((List.map_map ..).trans hkeys)
  rw [Session.keys, hext.history, List.map_append, hran]
  rfl

variable {start : Option Path} {m m' : Machine}

/-- A dry run goes the way of a live run with records. -/
theorem Returns.dry (h : sh.Returns c start m s rs s₁) (hdry : sh'.Rehearses sh)
    (usual : sh.InstallsAsUsual c s) (m' : Machine) :
    ∃ t t₁, sh'.Returns c start m' t rs t₁ ∧ t₁.machine.commands = m'.commands ∧
      t₁.keys = s₁.keys ∧ t₁.cwd = s₁.cwd := by
  have hlive := sh.runBook_completed h.ran
  obtain ⟨ps, hplan, hkeys⟩ := hlive.plan
  have hfresh : s.keys = [] := keys_of_openAt h.opened
  have hopen := hdry.openAt _ h.opened m'
  generalize ht : ({ cwd := s.cwd, machine := m' } : Session) = t at hopen
  have hcwd : t.cwd = s.cwd := ht ▸ rfl
  obtain ⟨ran, commands, hext, hcourse, -⟩ := sh'.runBook_follows (c := c) t
  have hplan' : sh'.plan c t.cwd (sh'.baseFrom c t.cwd t.machine.commands) = ps.map .ok := by
    rw [hdry.baseFrom, hdry.plan, hcwd, ← sh.plan_congr usual, hplan]
  obtain ⟨rs', hrs'⟩ := hcourse.exists_ok_of_dry hdry.dryRun ⟨ps, hplan'⟩
  rcases hrun : (sh'.runBook (.ofConfig c)).run t with ⟨outcome, t₁⟩
  rw [hrun] at hext hcourse hrs'
  obtain rfl : outcome = .ok rs' := hrs'
  have hcompleted := sh'.runBook_completed hrun
  have hrecords : rs' = rs := by
    have h' := hcompleted.records
    rw [hdry.baseFrom, hdry.records, hcwd, ← sh.records_congr usual, hlive.records] at h'
    exact (Except.ok.inj h').symm
  obtain ⟨ps', hps', hkeys'⟩ := hcompleted.plan
  obtain rfl : ps' = ps := eq_of_map_ok (hps'.symm.trans hplan')
  refine ⟨t, t₁, ⟨hopen, by rw [hrun, hrecords]⟩, ?_, ?_, ?_⟩
  · rw [hext.commands, hcourse.commands_of_dry hdry.dryRun, List.append_nil, ← ht]
  · rw [hkeys', hkeys, keys_of_openAt hopen, hfresh]
  · rw [hcompleted.cwd, hlive.cwd, hcwd]

/-- The commands of a plan without faults, around the one that pins the dependency. -/
theorem keys_split (hci : sh.context.ci = true) {start : Path} {base : Text} {ps : List Planned}
    (h : sh.plan c start base = ps.map .ok) :
    ∃ cwd after, ps.map Planned.key = keysBeforePin c start ++ (pinCommand c, cwd) :: after ∧
      after.map .ok = Plan.keys (sh.planBehindPin c start) := by
  have hkeys := sh.keys_plan (c := c) hci start base
  rw [h, keys_map_ok] at hkeys
  obtain ⟨before, rest, hps, hbefore, hrest⟩ := List.map_eq_append_iff.1 hkeys
  obtain ⟨pin, after, rfl, hpin, hafter⟩ := List.map_eq_cons_iff.1 hrest
  cases hdir : sh.directory start (modulesBelow c base) with
  | error fault =>
      rw [hdir] at hpin
      cases hpin
  | ok cwd =>
      rw [hdir] at hpin
      cases hpin
      exact ⟨cwd, after, by rw [hps, eq_of_map_ok hbefore], hafter⟩

/-- Two histories have the same commands, in the same directories but for the command that
pins a dependency. -/
def SameButPin (c : Config) (s₁ s₂ : Session) : Prop :=
  ∃ before after cwd₁ cwd₂, s₁.keys = before ++ (pinCommand c, cwd₁) :: after ∧
    s₂.keys = before ++ (pinCommand c, cwd₂) :: after

/-- A live and a dry run with records have the same commands, and differ in the directory
where the dependency is pinned at most. -/
theorem Returns.dry_of_ok (h : sh.Returns c start m s rs s₁) (hdry : sh'.Rehearses sh)
    (h' : sh'.Returns c start m' t rs' t₁) :
    (s₁.keys = t₁.keys ∨ sh.context.ci = true ∧ SameButPin c s₁ t₁) ∧
      rs.map StageRecord.withoutPath = rs'.map StageRecord.withoutPath := by
  have hlive := sh.runBook_completed h.ran
  have hcompleted := sh'.runBook_completed h'.ran
  obtain ⟨ps, hplan, hkeys⟩ := hlive.plan
  obtain ⟨ps', hplan', hkeys'⟩ := hcompleted.plan
  have hcwd : t.cwd = s.cwd := by
    rw [Except.ok.inj (h'.opened.symm.trans (hdry.openAt _ h.opened m'))]
  rw [keys_of_openAt h.opened, List.nil_append] at hkeys
  rw [keys_of_openAt h'.opened, List.nil_append] at hkeys'
  rw [hdry.plan, hdry.baseFrom, hcwd] at hplan'
  constructor
  · cases hci : sh.context.ci with
    | false =>
        left
        have hps : ps = ps' := by
          have hne : sh.context.ci = true →
              sh.baseFrom c s.cwd s.machine.commands = dryCapture := by
            simp [hci]
          rw [← sh.plan_congr hne] at hplan'
          exact eq_of_map_ok (hplan.symm.trans hplan')
        rw [hkeys, hkeys', hps]
    | true =>
        obtain ⟨cwd, after, hps, hafter⟩ := sh.keys_split hci hplan
        obtain ⟨cwd', after', hps', hafter'⟩ := sh.keys_split hci hplan'
        obtain rfl : after = after' := eq_of_map_ok (hafter.trans hafter'.symm)
        exact .inr ⟨rfl, keysBeforePin c s.cwd, after, cwd, cwd', hkeys.trans hps,
          hkeys'.trans hps'⟩
  · have hsame := sh.withoutPath_records (c := c) s.cwd
      (sh.baseFrom c s.cwd s.machine.commands) (dryCapture : Text)
    have hrs' := hcompleted.records
    rw [hdry.records, hdry.baseFrom, hcwd] at hrs'
    rw [hlive.records, hrs'] at hsame
    exact Except.ok.inj hsame

end Shell
end Bindery
