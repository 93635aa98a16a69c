import Bindery.Proofs.CommandLine.Exit
import Bindery.Proofs.CommandLine.Printed
import Bindery.Proofs.Pipeline.Taken

/-!
# Plans and runs

The task `plan` is a dry run of the pipeline that prints its history.
`dryRun_faithful` says how it relates to the run that it plans: for the pipeline by itself,
and for the two command lines.

What a plan prints as JSON is read back as the commands that the run starts.  A text can change
when it is read back, as JSON joins the halves of a surrogate pair, but the system takes no such
text for a process.
-/

namespace Bindery.CommandLine

variable {s s' : Surroundings} {r r' : Request}

/-! ## The same setting -/

/-- Surroundings with the same files and the same environment.  The children, the time and
the clock may differ. -/
structure SameSetting (s s' : Surroundings) : Prop where
  files : s'.world.files = s.world.files
  current : s'.world.current = s.world.current
  environment : s'.environment = s.environment

namespace SameSetting

theorem loaded (h : SameSetting s s') (hconfig : r'.config = r.config) :
    loaded s' r' = loaded s r := by
  simp only [CommandLine.loaded, context, Context.make, h.files, h.current, h.environment, hconfig]

theorem rehearses (h : SameSetting s s') (hdry : r'.task.isDry = true) (c : Config) :
    (shellOf s' r' c).Rehearses (shellOf s r c) where
  dryRun := hdry
  files := h.files
  current := h.current
  root := by simp only [shellOf, context, Context.make, h.current]
  ci := by simp only [shellOf, context, Context.make, h.environment]
  refName := by simp only [shellOf, context, Context.make, h.environment]

end SameSetting

/-! ## What a plan prints -/

theorem pipelineOutput_plan (ctx : Context) (v : VersionOption) (records : List StageRecord)
    (session : Session) :
    pipelineOutput ctx (.plan v true) records session =
      [result .line ctx [commandsMember session.keys]] := by
  rw [commandsMember, Session.keys, List.map_map]
  rfl

/-- The request for a plan with the flags of another request. -/
def planOf (r : Request) : Request := { r with task := .plan r.task.compatVersion true }

/-- The package manager installs where dry runs take it to, in the run of a request. -/
def InstallsAsUsual (s : Surroundings) (r : Request) : Prop :=
  ∀ c path version session, loaded s r = .ok (c, path) →
    pinnedVersion r.task.compatVersion = .ok version →
    (shellOf s r (c.withCompatVersion version)).openAt none (started s r path) = .ok session →
    (shellOf s r (c.withCompatVersion version)).InstallsAsUsual (c.withCompatVersion version)
      session

/-- All children are processes of the system. -/
def HasProcesses (s : Surroundings) : Prop :=
  ∀ before c, (s.world.children before c).isProcess = true

/-- The commands that end in a live pipeline of processes are read back as they are. -/
theorem readEntry_of_returns {c : Config} {m : Machine} {session session' : Session}
    {records : List StageRecord} (live : (context s r).dryRun = false) (hprocess : HasProcesses s)
    (h : (shellOf s r c).Returns c none m session records session') :
    session'.keys.map readEntry = session'.keys.map fun k => (k.1, k.2.text) := by
  have htaken := (shellOf s r c).runBook_taken live hprocess (.ofConfig c) (s := session) (by
    rw [Shell.eq_of_openAt h.opened]
    simp)
  rw [h.ran] at htaken
  refine List.map_congr_left fun k hk => ?_
  obtain ⟨e, he, rfl⟩ := List.mem_map.1 hk
  obtain ⟨hargv, hcwd⟩ := htaken e he
  exact readEntry_eq (fun t ht => Text.isSettled_of_pathFault? (hargv t ht))
    (Text.isSettled_of_pathFault? hcwd)

/-- A plan prints the commands that a run started. -/
structure Plans (s : Surroundings) (started : List Command) (o : Outcome) : Prop where
  exit : o.exit = 0
  /-- It starts none itself. -/
  commands : o.commands = []
  /-- What is printed is read back, with halves joined, as the commands that were started. -/
  printed : ∃ keys : List (List Text × Path), started.map Command.key = keys.map Shell.startedKey ∧
    PrintsCommands o.stdout (keys.map readEntry) ∧
    (HasProcesses s → PrintsCommands o.stdout (keys.map fun k => (k.1, k.2.text)))

/-- If a run exits well, its plan exits well and prints the commands that it started. -/
theorem plan_of_run {argv argv' : List Text} {v : VersionOption} {json : Bool}
    (hsame : SameSetting s s') (hrun : Request.parse argv = .ok r)
    (htask : r.task = .run false v json) (hplan : Request.parse argv' = .ok (planOf r))
    (usual : InstallsAsUsual s r) (hexit : (run s argv).exit = 0) :
    Plans s (run s argv).commands (run s' argv') := by
  have hpipeline : r.task.isPipeline = true := by rw [htask, Task.isPipeline]
  have live : (context s r).dryRun = false := congrArg Task.isDry htask
  obtain ⟨c, path, version, records, session, session₁, hload, hversion, hbook, -⟩ :=
    run_of_exit_ok hrun hpipeline hexit
  have hdry : (shellOf s' (planOf r) (c.withCompatVersion version)).Rehearses
      (shellOf s r (c.withCompatVersion version)) := hsame.rehearses rfl _
  obtain ⟨session', session₂, hbook', hcommands', hkeys', -⟩ :=
    hbook.dry _ hdry (usual c path version session hload hversion hbook.opened)
      (started s' (planOf r) path)
  obtain ⟨commands, keys, hcommands, hkeys, hstarted⟩ :=
    (Shell.runBook_completed _ hbook.ran).started _ live
  have hmachine : session.machine = started s r path := by rw [Shell.eq_of_openAt hbook.opened]
  rw [hmachine, started_commands, List.nil_append] at hcommands
  rw [Shell.keys_of_openAt hbook.opened, List.nil_append] at hkeys
  have hlive : (run s argv).commands = commands := by
    rw [run_of_returns hpipeline hload hversion hbook hrun, outcome_commands, hcommands]
  have hplanned : run s' argv' = outcome s' (context s' (planOf r))
      (.ok [result .line (context s' (planOf r)) [commandsMember keys]], session₂.machine) := by
    have hload' : loaded s' (planOf r) = .ok (c, path) := (hsame.loaded rfl).trans hload
    rw [run_of_returns rfl hload' hversion hbook' hplan, planOf, pipelineOutput_plan, hkeys', hkeys]
  rw [outcome_of_takes (takes_result _ _ _ _)] at hplanned
  have hstdout : (run s' argv').stdout =
      Text.ofLines [result .line (context s' (planOf r)) [commandsMember keys]] := by
    rw [hplanned]
  have hprinted : PrintsCommands (run s' argv').stdout (keys.map readEntry) := by
    rw [hstdout]
    exact printsCommands_result _ keys
  have hnone : session₂.machine.commands = [] := hcommands'
  have hall : (run s argv).commands.map Command.key = keys.map Shell.startedKey := by
    rw [hlive, hstarted]
  refine ⟨by rw [hplanned]; rfl, by rw [hplanned, hnone], keys, hall, hprinted, fun hprocess => ?_⟩
  rw [← hkeys, ← readEntry_of_returns live hprocess hbook, hkeys]
  exact hprinted

/-- Dry runs are faithful plans.

A live run that has records and is told that the package manager installs as usual has a dry
run with the same records, the same commands in the same directories, and no children.  For
any other answer the two may differ in where the dependency is pinned.  So the task `plan` prints
what a run with the same flags starts: one line of JSON, from which the words and the directory of
each command are read back. -/
theorem dryRun_faithful :
    (∀ (sh sh' : Shell) (c : Config) (start : Option Path) (m m' : Machine) (s s₁ : Session)
        (rs : List StageRecord), sh'.Rehearses sh → sh.Returns c start m s rs s₁ →
        sh.InstallsAsUsual c s →
        ∃ t t₁, sh'.Returns c start m' t rs t₁ ∧ t₁.machine.commands = m'.commands ∧
          t₁.keys = s₁.keys ∧ t₁.cwd = s₁.cwd) ∧
    (∀ (sh sh' : Shell) (c : Config) (start : Option Path) (m m' : Machine) (s s₁ t t₁ : Session)
        (rs rs' : List StageRecord), sh'.Rehearses sh → sh.Returns c start m s rs s₁ →
        sh'.Returns c start m' t rs' t₁ →
        (s₁.keys = t₁.keys ∨ sh.context.ci = true ∧ Shell.SameButPin c s₁ t₁) ∧
          rs.map StageRecord.withoutPath = rs'.map StageRecord.withoutPath) ∧
    (∀ (s s' : Surroundings) (r : Request) (argv argv' : List Text) (v : VersionOption)
        (json : Bool), SameSetting s s' → Request.parse argv = .ok r → r.task = .run false v json →
        Request.parse argv' = .ok (planOf r) → InstallsAsUsual s r →
        (run s argv).exit = 0 → Plans s (run s argv).commands (run s' argv')) := by
  refine ⟨?_, ?_, ?_⟩
  · intro sh sh' c start m m' s s₁ rs hdry h usual
    exact h.dry sh hdry usual m'
  · intro sh sh' c start m m' s s₁ t t₁ rs rs' hdry h h'
    exact h.dry_of_ok sh hdry h'
  · intro s s' r argv argv' v json hsame hrun htask hplan usual hexit
    exact plan_of_run hsame hrun htask hplan usual hexit

/-- The shell of `run` where all commands end well. -/
def sampleShell (base : String) : Shell := shellOf (sampleSurroundings base fun _ => 0) plainRun {}

theorem exists_returns {sh : Shell} {c : Config} {start : Option Path} {m : Machine} {s : Session}
    (hopen : sh.openAt start m = .ok s)
    (hok : ((sh.runBook (.ofConfig c)).run s).1.toOption.isSome = true) :
    ∃ rs s', sh.Returns c start m s rs s' := by
  rcases hrun : (sh.runBook (.ofConfig c)).run s with ⟨fault | rs, s'⟩
  · rw [hrun] at hok
    cases hok
  · exact ⟨rs, s', hopen, hrun⟩

/-- The surroundings with processes in place of what stands in for them. -/
def onSystem (s : Surroundings) : Surroundings :=
  { s with world.children := fun before c => { s.world.children before c with isProcess := true } }

/-- A system that installs as usual, one that does not, and the command lines `run` and
`plan --json` on the first. -/
theorem dryRun_faithful_on_samples :
    (∃ rs t t₁, (sampleShell "/usr/local").dry.Returns {} none {} t rs t₁ ∧
      t₁.machine.commands = [] ∧ t₁.keys.length = 8) ∧
    (∃ rs rs' s₁ t₁, (s₁.keys = t₁.keys ∨ Shell.SameButPin {} s₁ t₁) ∧
      rs.map StageRecord.withoutPath = rs'.map StageRecord.withoutPath ∧
      ((sampleShell "/opt/node").runBook (.ofConfig {})).run
        { cwd := .ofNames ["srv", "book"] } = (.ok rs, s₁) ∧
      ((sampleShell "/opt/node").dry.runBook (.ofConfig {})).run
        { cwd := .ofNames ["srv", "book"] } = (.ok rs', t₁)) ∧
    ∃ keys : List (List Text × Path),
      (run (onSystem (sampleSurroundings "/usr/local" fun _ => 0)) ["run"]).commands.map
        Command.key = keys.map Shell.startedKey ∧ keys.length = 8 ∧
      PrintsCommands (run (sampleSurroundings "/usr/local" fun _ => 1) ["plan", "--json"]).stdout
        (keys.map fun k => (k.1, k.2.text)) := by
  have hopen : (sampleShell "/opt/node").openAt none {} =
      .ok { cwd := .ofNames ["srv", "book"] } := rfl
  refine ⟨?_, ?_, ?_⟩
  · have husual : (sampleShell "/usr/local").openAt none {} =
        .ok { cwd := .ofNames ["srv", "book"] } := rfl
    obtain ⟨rs, s₁, hlive⟩ := exists_returns (c := {}) husual (by decide +kernel)
    have usual : (sampleShell "/usr/local").InstallsAsUsual {}
        { cwd := .ofNames ["srv", "book"] } := fun _ => by decide +kernel
    obtain ⟨t, t₁, hdry, hcommands, hkeys, -⟩ :=
      dryRun_faithful.1 _ _ _ _ _ {} _ _ _ (Shell.dry_rehearses _) hlive usual
    obtain rfl : _ = s₁ := congrArg Prod.snd hlive.ran
    refine ⟨rs, t, t₁, hdry, hcommands, ?_⟩
    rw [hkeys]
    decide +kernel
  · obtain ⟨rs, s₁, hlive⟩ := exists_returns (c := {}) hopen (by decide +kernel)
    obtain ⟨rs', t₁, hdry⟩ :=
      exists_returns (c := {}) ((Shell.dry_rehearses _).openAt _ hopen {}) (by decide +kernel)
    obtain ⟨hkeys, hrecords⟩ :=
      dryRun_faithful.2.1 _ _ _ _ _ _ _ _ _ _ _ _ (Shell.dry_rehearses _) hlive hdry
    exact ⟨rs, rs', s₁, t₁, hkeys.imp_right And.right, hrecords, hlive.ran, hdry.ran⟩
  · have hsame : SameSetting (onSystem (sampleSurroundings "/usr/local" fun _ => 0))
        (sampleSurroundings "/usr/local" fun _ => 1) := ⟨rfl, rfl, rfl⟩
    have usual : InstallsAsUsual (onSystem (sampleSurroundings "/usr/local" fun _ => 0))
        plainRun := by
      rintro c path version session hload hversion hopen hci
      cases hload
      cases hversion
      cases hopen
      decide +kernel
    obtain ⟨-, -, keys, hstarted, -, hprinted⟩ :=
      dryRun_faithful.2.2 _ _ plainRun ["run"] ["plan", "--json"] _ _ hsame rfl rfl rfl usual
        (by decide +kernel)
    refine ⟨keys, hstarted, ?_, hprinted fun _ _ => rfl⟩
    have hlength := congrArg List.length hstarted
    rw [List.length_map, List.length_map] at hlength
    rw [← hlength]
    decide +kernel

end Bindery.CommandLine
