import Bindery.Pipeline
import Bindery.Proofs.Shell.Follows

/-!
# The plan of the pipeline

`Shell.plan` lists the commands of the pipeline in their order, stage by stage, for what
the package manager says about where it installs.  `Shell.records` are the records that
the stages leave.  `runBook_follows` says that the pipeline follows this plan and that its
result are these records.
-/

namespace Bindery

namespace Shell

variable (sh : Shell) (c : Config)

/-! ## Plans and records -/

/-- The command that asks where the package manager installs. -/
def baseQuery (c : Config) : List Text := [c.npm, "config", "get", "prefix"]

/-- The command that installs the pinned dependency. -/
def pinCommand (c : Config) : List Text := [c.npm, "install", c.compatSpec, "--save"]

/-- The commands that build the book. -/
def buildCommands (c : Config) : List (List Text) :=
  [[c.npm, "install"], [c.gitbook, "install"], [c.gitbook, "build"]]

/-- The directory of the modules of the program that builds the book, below the one where
the package manager installs. -/
def modulesBelow (c : Config) (base : Text) : Path :=
  Path.parse base / Path.parse c.nestedModulesPath

/-- The command that uploads the book of a ref, or why there is none. -/
def uploadOf (c : Config) (ref : Text) : Except Fault (List Text) :=
  match c.uploadCommand? ref with
  | some argv => .ok argv
  | none => .error (.unusable .blankRef)

/-- The commands of a stage from a directory, if the package manager installs in `base`. -/
def stagePlan (start : Path) (base : Text) : Stage → Plan
  | .printVersions => [.ok ⟨[c.npm, "version"], start, none⟩]
  | .installToolchain => [.ok ⟨[c.npm, "install", "-g", c.toolchainPackage], start, none⟩]
  | .patchCiDependency =>
      if sh.context.ci then
        .ok ⟨baseQuery c, start, some base⟩ ::
          planIn (sh.directory start (modulesBelow c base)) [pinCommand c]
      else []
  | .buildSite => planIn (sh.directory start (.parse c.docsDir)) (buildCommands c)
  | .publishSite =>
      match sh.context.ref? with
      | none => []
      | some ref => [(uploadOf c ref).map fun argv => ⟨argv, start, none⟩]

/-- The commands of the pipeline from a directory. -/
def plan (start : Path) (base : Text) : Plan := Stage.all.flatMap (sh.stagePlan c start base)

/-- The record that a stage leaves. -/
def recordOf (start : Path) (base : Text) : Stage → Except Fault StageRecord
  | .printVersions => .ok { stage := .printVersions }
  | .installToolchain =>
      .ok { stage := .installToolchain, details := [("package", c.toolchainPackage)] }
  | .patchCiDependency =>
      if sh.context.ci then
        .ok { stage := .patchCiDependency
              details := [("path", (modulesBelow c base).text), ("package", c.compatSpec)] }
      else .ok { stage := .patchCiDependency, skipped := some notOnCi }
  | .buildSite => (sh.directory start (.parse c.docsDir)).map fun docs =>
      { stage := .buildSite, details := [("docs_dir", docs.text)] }
  | .publishSite =>
      match sh.context.ref? with
      | none => .ok { stage := .publishSite, skipped := some (Config.skipMessage : Text) }
      | some ref =>
          match c.destination? ref with
          | some place => .ok { stage := .publishSite, details := [("destination", place)] }
          | none => .error (.unusable .blankRef)

/-- The records that the pipeline leaves. -/
def records (start : Path) (base : Text) : Except Fault (List StageRecord) :=
  Stage.all.mapM (sh.recordOf c start base)

/-! ## Stages -/

variable {c}

theorem printVersions_follows (s : Session) (base : Text) :
    (sh.printVersions (.ofConfig c)).Follows sh s (sh.stagePlan c s.cwd base .printVersions)
      fun r => sh.recordOf c s.cwd base .printVersions = .ok r :=
  (sh.run_follows [c.npm, "version"] s).map fun _ _ => rfl

theorem installToolchain_follows (s : Session) (base : Text) :
    (sh.installToolchain (.ofConfig c)).Follows sh s
      (sh.stagePlan c s.cwd base .installToolchain)
      fun r => sh.recordOf c s.cwd base .installToolchain = .ok r :=
  (sh.run_follows [c.npm, "install", "-g", c.toolchainPackage] s).map fun _ _ => rfl

theorem buildSite_follows (s : Session) (base : Text) :
    (sh.buildSite (.ofConfig c)).Follows sh s (sh.stagePlan c s.cwd base .buildSite)
      fun r => sh.recordOf c s.cwd base .buildSite = .ok r := by
  have hbody : ∀ dir s', sh.directory s.cwd (.parse c.docsDir) = .ok dir → s'.cwd = dir →
      (do
        let _ ← sh.run ([c.npm, "install"].map .text)
        let _ ← sh.run ([c.gitbook, "install"].map .text)
        let _ ← sh.run ([c.gitbook, "build"].map .text)
        return dir : Act Path).Follows sh s' (planIn (.ok dir) (buildCommands c))
        fun docs => sh.directory s.cwd (.parse c.docsDir) = .ok docs := by
    rintro dir s' hdir rfl
    refine (sh.run_follows [c.npm, "install"] s').bind fun _ _ s₁ _ h₁ => ?_
    rw [← h₁.cwd]
    refine (sh.run_follows [c.gitbook, "install"] s₁).bind fun _ _ s₂ _ h₂ => ?_
    rw [← h₂.cwd]
    exact (sh.run_follows [c.gitbook, "build"] s₂).map fun _ _ => by rw [h₂.cwd, h₁.cwd, hdir]
  refine (sh.inside_follows (List.cons_ne_nil _ _) hbody).map fun docs hdocs => ?_
  simp only [recordOf, hdocs]
  rfl

theorem publishSite_follows (s : Session) (base : Text) :
    (sh.publishSite (.ofConfig c)).Follows sh s (sh.stagePlan c s.cwd base .publishSite)
      fun r => sh.recordOf c s.cwd base .publishSite = .ok r := by
  unfold publishSite stagePlan recordOf
  cases sh.context.ref? with
  | none => exact (sh.log_follows skipEvent s).map fun _ _ => rfl
  | some ref =>
      simp only [Settings.uploadCommand_ofConfig, Settings.destination_ofConfig, uploadOf,
        Config.uploadCommand?]
      cases c.destination? ref with
      | none => exact .throw (by simp)
      | some place =>
          exact (sh.run_follows [c.gsutil, "-m", "cp", "-r", "-a", c.acl, c.source, place] s).map
            fun _ _ => rfl

theorem patchCiDependency_follows {s : Session} {base : Text}
    (hbase : sh.answer s.machine.commands (baseQuery c) s.cwd = base) :
    (sh.patchCiDependency (.ofConfig c)).Follows sh s
      (sh.stagePlan c s.cwd base .patchCiDependency)
      fun r => sh.recordOf c s.cwd base .patchCiDependency = .ok r := by
  unfold patchCiDependency stagePlan recordOf
  cases sh.context.ci with
  | false => exact .pure rfl
  | true =>
      simp only [Bool.not_true, Bool.false_eq_true, if_false, if_true]
      by_cases hblank : base = []
      · subst hblank
        refine sh.capture_follows_of_blank hbase (fun s' hs' => ?_) _ []
        rw [← hs']
        rfl
      · have hempty : List.isEmpty base = false := by simpa using hblank
        have hbody : ∀ dir s', sh.directory s.cwd (modulesBelow c base) = .ok dir →
            s'.cwd = dir → (sh.run ((pinCommand c).map .text)).Follows sh s'
              (planIn (.ok dir) [pinCommand c]) fun _ => True := by
          rintro dir s' - rfl
          exact sh.run_follows (pinCommand c) s'
        have hanswered : sh.answer s.machine.commands (baseQuery c) s.cwd ≠ [] := by rwa [hbase]
        rw [← hbase]
        refine (sh.capture_follows hanswered).bind fun output _ s₁ houtput h₁ => ?_
        rw [hbase] at houtput ⊢
        subst houtput
        simp only [hempty, Bool.false_eq_true, if_false]
        rw [← h₁.cwd] at hbody ⊢
        exact (sh.inside_follows (List.cons_ne_nil _ _) hbody).map fun _ _ => rfl

/-! ## The pipeline -/

/-- What the package manager says about where it installs, if the pipeline asks from a
directory with these commands started before. -/
def baseFrom (sh : Shell) (c : Config) (start : Path) (before : List Command) : Text :=
  sh.answer
    (before ++ sh.startedBy ([.printVersions, .installToolchain].flatMap (sh.stagePlan c start [])))
    (baseQuery c) start

theorem perform_follows {stage : Stage} {s : Session} {base : Text}
    (hbase : stage = .patchCiDependency →
      sh.answer s.machine.commands (baseQuery c) s.cwd = base) :
    (sh.perform (.ofConfig c) stage).Follows sh s (sh.stagePlan c s.cwd base stage)
      fun r => sh.recordOf c s.cwd base stage = .ok r := by
  cases stage with
  | printVersions => exact sh.printVersions_follows s base
  | installToolchain => exact sh.installToolchain_follows s base
  | patchCiDependency => exact sh.patchCiDependency_follows (hbase rfl)
  | buildSite => exact sh.buildSite_follows s base
  | publishSite => exact sh.publishSite_follows s base

theorem performLogged_follows {stage : Stage} {s : Session} {base : Text}
    (hbase : stage = .patchCiDependency →
      sh.answer s.machine.commands (baseQuery c) s.cwd = base) :
    (sh.performLogged (.ofConfig c) stage).Follows sh s (sh.stagePlan c s.cwd base stage)
      fun r => sh.recordOf c s.cwd base stage = .ok r := by
  have h : (sh.performLogged (.ofConfig c) stage).Follows sh s
      (sh.stagePlan c s.cwd base stage ++ []) fun r => sh.recordOf c s.cwd base stage = .ok r :=
    (sh.perform_follows hbase).bind fun r _ s' hr _ =>
      (sh.log_follows r.event s').map fun _ _ => hr
  rwa [List.append_nil] at h

/-- Stages one after the other follow their plans one after the other. -/
theorem mapM_follows {stages : List Stage} {s : Session} {base : Text}
    (hbase : ∀ before after, stages = before ++ .patchCiDependency :: after →
      sh.answer (s.machine.commands ++
        sh.startedBy (before.flatMap (sh.stagePlan c s.cwd base))) (baseQuery c) s.cwd = base) :
    (stages.mapM (sh.performLogged (.ofConfig c))).Follows sh s
      (stages.flatMap (sh.stagePlan c s.cwd base))
      fun rs => stages.mapM (sh.recordOf c s.cwd base) = .ok rs := by
  -- The stages that are done move from the plan to the commands started before.
  induction stages generalizing s with
  | nil => exact .pure rfl
  | cons stage stages ih =>
      rw [List.mapM_cons, List.flatMap_cons]
      have hstage : stage = .patchCiDependency →
          sh.answer s.machine.commands (baseQuery c) s.cwd = base := by
        rintro rfl
        simpa [startedBy] using hbase [] stages rfl
      refine (sh.performLogged_follows hstage).bind fun r _ s₁ hr h₁ => ?_
      have hrest := ih (s := s₁) fun before after hstages => by
        have h := hbase (stage :: before) after (by rw [hstages]; rfl)
        rw [h₁.commands, h₁.cwd, List.append_assoc]
        simpa [startedBy] using h
      rw [h₁.cwd] at hrest
      refine hrest.map fun rs hrs => ?_
      rw [List.mapM_cons, hr, hrs]
      rfl

/-- The dependency is pinned behind two other stages. -/
theorem stages_before_patch {before after : List Stage}
    (h : Stage.all = before ++ .patchCiDependency :: after) :
    before = [.printVersions, .installToolchain] := by
  rcases before with _ | ⟨first, _ | ⟨second, _ | ⟨third, before⟩⟩⟩
  · simp [Stage.all] at h
  · simp [Stage.all] at h
  · simp only [Stage.all, List.cons_append, List.nil_append, List.cons.injEq] at h
    rw [← h.1, ← h.2.1]
  · simp only [Stage.all, List.cons_append, List.cons.injEq] at h
    have hmem : Stage.patchCiDependency ∈ [Stage.buildSite, .publishSite] := by
      rw [h.2.2.2]
      simp
    simp at hmem

/-- The pipeline follows its plan, and its result are the records of the plan. -/
theorem runBook_follows (s : Session) :
    (sh.runBook (.ofConfig c)).Follows sh s
      (sh.plan c s.cwd (sh.baseFrom c s.cwd s.machine.commands))
      fun rs => sh.records c s.cwd (sh.baseFrom c s.cwd s.machine.commands) = .ok rs := by
  refine sh.mapM_follows fun before after h => ?_
  rw [stages_before_patch h]
  rfl

/-- A shell that starts in a directory runs the pipeline and has records. -/
structure Returns (sh : Shell) (c : Config) (start : Option Path) (m : Machine) (s : Session)
    (rs : List StageRecord) (s' : Session) : Prop where
  opened : sh.openAt start m = .ok s
  ran : (sh.runBook (.ofConfig c)).run s = (.ok rs, s')

/-! ## A repository -/

/-- Children of a system where the package manager installs in a directory, with the exit
codes of the commands. -/
def sampleChildren (base : String) (code : List Text → Int) : Children := fun _ c =>
  let argv := (Value.texts? c.argv).getD []
  { exit := code argv
    stdout := if argv = baseQuery {} then (base ++ "\n").toList.map (.ofNat ·.toNat) else [] }

/-- A repository on such a system, with the directories that the pipeline enters. -/
def sampleWorld (base : String) (code : List Text → Int) : World where
  files := ((FileSystem.mk [] []).create ["srv", "book", "docs"] .directory).create
    (modulesBelow {} base).parts .directory
  current := ["srv", "book"]
  children := sampleChildren base code

end Shell
end Bindery
