import Bindery.Proofs.Pipeline.Plan
import Bindery.Proofs.Shell.Scope

/-!
# The scope of the stages

`Shell.Runs` says which commands a stage runs and where: in the directory it starts from, in
the directory of the book, or in the one that the package manager names.  The stages keep to
it in any order and for any settings (`performAll_makes`), and come back to the directory that
they started from.  `directories_scoped` puts this beside what holds of programs.
-/

namespace Bindery

/-- A deed is a command of given words in a directory. -/
structure Deed.Is (d : Deed) (words : List Value) (cwd : Path) (capture : Bool) : Prop where
  words : d.words = words
  cwd : d.cwd = cwd
  capture : d.capture = capture

namespace Shell

/-- The command that pins the dependency. -/
def pinWords (c : Settings) : List Value :=
  [c.value .npm, .text "install", .text c.compatSpec, .text "--save"]

/-- The commands that build the book. -/
def buildWords (c : Settings) : List (List Value) :=
  [[c.value .npm, .text "install"], [c.value .gitbook, .text "install"],
    [c.value .gitbook, .text "build"]]

/-- A stage that starts from a directory runs a command, and other moves tell where. -/
inductive Runs (sh : Shell) (c : Settings) (start : Path) (moves : List Move) :
    Stage → Deed → Prop where
  | versions {d : Deed} (h : d.Is [c.value .npm, .text "version"] start false) :
      Runs sh c start moves .printVersions d
  | toolchain {d : Deed}
      (h : d.Is [c.value .npm, .text "install", .text "-g", c.value .toolchainPackage] start
        false) : Runs sh c start moves .installToolchain d
  /-- The package manager is asked where it installs. -/
  | query {d : Deed} (h : d.Is (baseCommand c) start true) :
      Runs sh c start moves .patchCiDependency d
  /-- The dependency is pinned below the directory that was the answer. -/
  | pin {d query : Deed} {r : Result} {modules dir : Path} (hquery : .did query ∈ moves)
      (his : query.Is (baseCommand c) start true) (hanswer : query.answer = .ok r)
      (hmodules : c.nestedModules (Text.trim r.stdout) = .ok modules)
      (hdir : sh.directory start modules = .ok dir) (h : d.Is (pinWords c) dir false) :
      Runs sh c start moves .patchCiDependency d
  /-- The book is built in its directory. -/
  | build {d : Deed} {words : List Value} {docs dir : Path} (hwords : words ∈ buildWords c)
      (hdocs : Settings.pathOf (c.value .docsDir) = .ok docs)
      (hdir : sh.directory start docs = .ok dir) (h : d.Is words dir false) :
      Runs sh c start moves .buildSite d
  | upload {d : Deed} {ref : Text} {words : List Value} (href : sh.context.ref? = some ref)
      (hwords : c.uploadCommand (.text ref) = .ok words) (h : d.Is words start false) :
      Runs sh c start moves .publishSite d

/-- All deeds are as they should be in whatever the moves are part of, and a missing result is
the answer to one of them. -/
structure Kept {α : Type} (place : List Move → Deed → Prop) (moves : List Move)
    (outcome : Except Fault α) : Prop where
  place : ∀ all, moves ⊆ all → ∀ d, .did d ∈ moves → place all d
  lost : ∀ f, outcome = .error (.noResult f) → ∃ d, .did d ∈ moves ∧ d.answer = .error f

variable {sh : Shell} {c : Settings} {start : Path} {moves later : List Move} {stage : Stage}
  {s : Session}

theorem lost_of_outcome {d : Deed} {f : Machine.Fault} (h : d.outcome = .error (.noResult f)) :
    d.answer = .error f := by
  unfold Deed.outcome at h
  cases hanswer : d.answer with
  | error fault =>
      rw [hanswer] at h
      cases h
      rfl
  | ok r =>
      rw [hanswer] at h
      dsimp only at h
      split at h <;> cases h

theorem answer_of_outcome {d : Deed} {r : Result} (h : d.outcome = .ok r) :
    d.answer = .ok r := by
  unfold Deed.outcome at h
  cases hanswer : d.answer with
  | error fault =>
      rw [hanswer] at h
      cases h
  | ok r' =>
      rw [hanswer] at h
      dsimp only at h
      split at h
      · cases h
        rfl
      · cases h

namespace Kept

variable {α β : Type} {place place' : List Move → Deed → Prop} {outcome : Except Fault α}

theorem nil (h : ∀ f, outcome ≠ .error (.noResult f)) : Kept place [] outcome :=
  ⟨fun _ _ _ hd => absurd hd List.not_mem_nil, fun f hf => absurd hf (h f)⟩

theorem deed {d : Deed} (h : ∀ all, place all d) : Kept place [.did d] d.outcome := by
  constructor
  · intro all _ e he
    cases List.mem_singleton.1 he
    exact h all
  · intro f hf
    exact ⟨d, .head _, lost_of_outcome hf⟩

/-- Moves behind a deed may rest on it. -/
theorem behind {d : Deed} (h : ∀ all, place all d)
    (hrest : Kept (fun all e => .did d ∈ all → place all e) moves outcome) :
    Kept place (.did d :: moves) outcome := by
  constructor
  · intro all hall e he
    rcases List.mem_cons.1 he with he | he
    · cases he
      exact h all
    · exact hrest.place all (fun move hmove => hall (.tail _ hmove)) e he (hall (.head _))
  · intro f hf
    obtain ⟨e, he, hanswer⟩ := hrest.lost f hf
    exact ⟨e, .tail _ he, hanswer⟩

theorem noted {e : Event} (h : Kept place moves outcome) :
    Kept place (.noted e :: moves) outcome := by
  constructor
  · intro all hall d hd
    rcases List.mem_cons.1 hd with hd | hd
    · cases hd
    · exact h.place all (fun move hmove => hall (.tail _ hmove)) d hd
  · intro f hf
    obtain ⟨d, hd, hanswer⟩ := h.lost f hf
    exact ⟨d, .tail _ hd, hanswer⟩

theorem append {a : α} {outcome : Except Fault β} (h : Kept place moves (.ok a))
    (h' : Kept place later outcome) : Kept place (moves ++ later) outcome := by
  constructor
  · intro all hall d hd
    have hsubset := List.append_subset.1 hall
    rcases List.mem_append.1 hd with hd | hd
    · exact h.place all hsubset.1 d hd
    · exact h'.place all hsubset.2 d hd
  · intro f hf
    obtain ⟨d, hd, hanswer⟩ := h'.lost f hf
    exact ⟨d, List.mem_append_right _ hd, hanswer⟩

theorem of_error {fault : Fault} (h : Kept place moves (.error fault : Except Fault α)) :
    Kept place moves (.error fault : Except Fault β) := by
  refine ⟨h.place, fun f hf => h.lost f ?_⟩
  cases hf
  rfl

theorem map {f : α → β} (h : Kept place moves outcome) : Kept place moves (outcome.map f) := by
  refine ⟨h.place, fun fault hfault => h.lost fault ?_⟩
  cases outcome with
  | ok a => cases hfault
  | error fault' =>
      cases hfault
      rfl

theorem mono (h : Kept place moves outcome) (hplace : ∀ all d, place all d → place' all d) :
    Kept place' moves outcome :=
  ⟨fun all hall d hd => hplace all d (h.place all hall d hd), h.lost⟩

/-- What is kept by one act and by the next one is kept by one behind the other. -/
theorem bind {act : Act α} {f : α → Act β} (h : act.Makes sh s (Kept place))
    (hf : ∀ a s', s'.cwd = s.cwd → (f a).Makes sh s' (Kept place)) :
    (act >>= f).Makes sh s (Kept place) := by
  refine Act.Makes.bind h (fun _ _ herror => herror.of_error) ?_
  intro moves a s' hok hcwd
  exact (hf a s' hcwd).mono fun _ _ hrest => hok.append hrest

theorem pure {a : α} : (Pure.pure a : Act α).Makes sh s (Kept place) :=
  .pure (.nil (by simp))

theorem log (e : Event) : (Shell.log e).Makes sh s (Kept place) := by
  refine (log_makes sh s e).mono ?_
  rintro moves outcome ⟨rfl, rfl⟩
  exact (Kept.nil (by simp)).noted

theorem use {r : Except Settings.Fault α} {f : α → Act β}
    (h : ∀ a, r = .ok a → (f a).Makes sh s (Kept place)) :
    (Shell.use r >>= f).Makes sh s (Kept place) := by
  cases r with
  | ok a =>
      rw [Shell.use, pure_bind]
      exact h a rfl
  | error fault =>
      have hthrow : (throw (.unusable fault) : Act α).Makes sh s fun moves outcome =>
          moves = [] ∧ outcome = .error (.unusable fault) := .throw ⟨rfl, rfl⟩
      refine hthrow.bind ?_ ?_
      · rintro moves fault ⟨rfl, ⟨⟩⟩
        exact .nil (by simp)
      · rintro moves a s' ⟨-, ⟨⟩⟩

theorem run {words : List Value} (h : ∀ all d, d.Is words s.cwd false → place all d) :
    (sh.run words).Makes sh s (Kept place) := by
  refine (sh.run_makes s words).mono ?_
  rintro moves outcome ⟨answer, rfl, rfl⟩
  exact .deed fun all => h all _ ⟨rfl, rfl, rfl⟩

theorem inside {path : Path} {body : Path → Act α}
    (h : ∀ dir s', sh.directory s.cwd path = .ok dir → s'.cwd = dir →
      (body dir).Makes sh s' (Kept place)) : (sh.inside path body).Makes sh s (Kept place) := by
  refine sh.inside_makes s ?_ ?_
  · intro fault hfault
    refine .nil fun f => ?_
    rintro ⟨⟩
    unfold directory at hfault
    cases hresolve : sh.world.files.resolve sh.world.current (s.cwd / path) <;>
      · rw [hresolve] at hfault
        cases hfault
  · intro dir s' hdir hcwd
    exact (h dir s' hdir hcwd).mono fun _ _ hbody => hbody.noted

theorem mapM {f : α → Act β} {as : List α} {places : α → List Move → Deed → Prop}
    (h : ∀ a ∈ as, ∀ s', s'.cwd = s.cwd → (f a).Makes sh s' (Kept (places a))) :
    (as.mapM f).Makes sh s (Kept fun all d => ∃ a ∈ as, places a all d) := by
  induction as generalizing s with
  | nil => exact pure
  | cons a as ih =>
      rw [List.mapM_cons]
      refine bind ((h a (.head _) s rfl).mono fun _ _ hk => hk.mono ?_) fun b s₁ h₁ => ?_
      · exact fun all d hd => ⟨a, .head _, hd⟩
      · refine bind ((ih fun a' ha' s' hs' => ?_).mono fun _ _ hk => hk.mono ?_) fun _ _ _ => pure
        · exact h a' (.tail _ ha') s' (hs'.trans h₁)
        · rintro all d ⟨a', ha', hd⟩
          exact ⟨a', .tail _ ha', hd⟩

end Kept

/-! ## Stages -/

section

variable (sh) (c) (s)

theorem printVersions_makes :
    (sh.printVersions c).Makes sh s (Kept fun all => sh.Runs c s.cwd all .printVersions) :=
  Kept.bind (Kept.run fun _ _ h => .versions h) fun _ _ _ => Kept.pure

theorem installToolchain_makes :
    (sh.installToolchain c).Makes sh s (Kept fun all => sh.Runs c s.cwd all .installToolchain) :=
  Kept.bind (Kept.run fun _ _ h => .toolchain h) fun _ _ _ => Kept.pure

theorem buildSite_makes :
    (sh.buildSite c).Makes sh s (Kept fun all => sh.Runs c s.cwd all .buildSite) := by
  refine Kept.use fun docs hdocs => ?_
  refine Kept.bind (Kept.inside fun dir s₁ hdir h₁ => ?_) fun _ _ _ => Kept.pure
  have hbuild : ∀ words ∈ buildWords c, ∀ s', s'.cwd = s₁.cwd →
      (sh.run words).Makes sh s' (Kept fun all => sh.Runs c s.cwd all .buildSite) := by
    intro words hwords s' hs'
    refine Kept.run fun all d hd => ?_
    rw [hs', h₁] at hd
    exact .build hwords hdocs hdir hd
  refine Kept.bind (hbuild _ (.head _) s₁ rfl) fun _ s₂ h₂ => ?_
  refine Kept.bind (hbuild _ (.tail _ (.head _)) s₂ h₂) fun _ s₃ h₃ => ?_
  refine Kept.bind (hbuild _ (.tail _ (.tail _ (.head _))) s₃ (h₃.trans h₂)) fun _ _ _ => ?_
  exact Kept.pure

theorem publishSite_makes :
    (sh.publishSite c).Makes sh s (Kept fun all => sh.Runs c s.cwd all .publishSite) := by
  unfold publishSite
  cases href : sh.context.ref? with
  | none => exact Kept.bind (Kept.log skipEvent) fun _ _ _ => Kept.pure
  | some ref =>
      refine Kept.use fun words hwords => ?_
      refine Kept.bind (Kept.run fun _ _ h => .upload href hwords h) fun _ _ _ => ?_
      exact Kept.use fun _ _ => Kept.pure

theorem patchCiDependency_makes :
    (sh.patchCiDependency c).Makes sh s
      (Kept fun all => sh.Runs c s.cwd all .patchCiDependency) := by
  unfold patchCiDependency
  cases sh.context.ci with
  | false => exact Kept.pure
  | true =>
      simp only [Bool.not_true, Bool.false_eq_true, if_false]
      -- The pin command belongs below what the query printed, so the query stays in sight.
      refine (sh.capture_makes s (baseCommand c)).bind ?_ ?_
      · rintro moves fault ⟨answer, rfl, houtcome⟩
        have hkept : Kept (fun all => sh.Runs c s.cwd all .patchCiDependency)
            [.did ⟨baseCommand c, s.cwd, true, answer⟩] (.error fault : Except Fault Text) := by
          rw [houtcome]
          exact (Kept.deed fun _ => .query ⟨rfl, rfl, rfl⟩).map
        exact hkept.of_error
      · rintro moves base s₁ ⟨answer, rfl, houtcome⟩ h₁
        let query : Deed := ⟨baseCommand c, s.cwd, true, answer⟩
        have hquery : query.Is (baseCommand c) s.cwd true := ⟨rfl, rfl, rfl⟩
        obtain ⟨r, hanswer, rfl⟩ : ∃ r, query.answer = .ok r ∧ base = Text.trim r.stdout := by
          cases hr : query.outcome with
          | error fault =>
              rw [hr] at houtcome
              cases houtcome
          | ok r =>
              rw [hr] at houtcome
              cases houtcome
              exact ⟨r, answer_of_outcome hr, rfl⟩
        refine Act.Makes.mono ?_ fun _ _ hrest => Kept.behind (fun _ => .query hquery) hrest
        split
        · have hblank : Kept (fun all e => .did query ∈ all →
              sh.Runs c s.cwd all .patchCiDependency e) [] (.error (.commandFailed
                ⟨(baseCommand c).map Value.plain, s₁.cwd, 0, .noOutput⟩) :
                  Except Fault StageRecord) := .nil (by simp)
          exact ⟨[], .refl s₁, hblank⟩
        · refine Kept.use fun modules hmodules => ?_
          refine Kept.bind (Kept.inside fun dir s₂ hdir h₂ => ?_) fun _ _ _ => Kept.pure
          refine Kept.run fun all d hd hmem => ?_
          rw [h₁] at hdir
          rw [h₂] at hd
          exact .pin hmem hquery hanswer hmodules hdir hd

/-- A stage runs its commands where they belong. -/
theorem perform_makes (stage : Stage) :
    (sh.perform c stage).Makes sh s (Kept fun all => sh.Runs c s.cwd all stage) := by
  cases stage with
  | printVersions => exact sh.printVersions_makes c s
  | installToolchain => exact sh.installToolchain_makes c s
  | patchCiDependency => exact sh.patchCiDependency_makes c s
  | buildSite => exact sh.buildSite_makes c s
  | publishSite => exact sh.publishSite_makes c s

/-- Stages in any order run their commands where they belong. -/
theorem performAll_makes (stages : List Stage) :
    (sh.performAll c stages).Makes sh s
      (Kept fun all d => ∃ stage ∈ stages, sh.Runs c s.cwd all stage d) := by
  refine Kept.mapM fun stage _ s' hs' => ?_
  rw [← hs']
  exact sh.perform_makes c s' stage

end

/-! ## Directories that are left again -/

/-- A session whose directories are those of another one, with a history that goes on from the
other one's. -/
structure Restores (s s' : Session) : Prop where
  stack : s'.stack = s.stack
  nonempty : s'.stack ≠ []
  history : s.history <+: s'.history

theorem restores_of_gains {s s' : Session} (h : s.Gains sh moves s') : Restores s s' :=
  ⟨h.stack_eq, List.cons_ne_nil _ _, h.history_prefix⟩

/-- Whatever a shell does, it comes back to the directories it started from and only adds to
the history.  Steps do what they may do in the directory of the session, stages run their
commands where they belong, and a block whose directory cannot be resolved does nothing. -/
theorem directories_scoped (sh : Shell) :
    (∀ (step : Step) (s : Session), Restores s (step.play sh s).session ∧
      (step.play sh s).Scoped sh s [step]) ∧
    (∀ (steps : List Step) (s : Session), Restores s (Step.playAll sh steps s).session ∧
      (Step.playAll sh steps s).Scoped sh s steps) ∧
    (∀ (c : Settings) (stage : Stage) (s : Session),
      Restores s ((sh.perform c stage).run s).2) ∧
    (∀ (c : Settings) (stages : List Stage) (s : Session),
      Restores s ((sh.performAll c stages).run s).2 ∧
        ∃ moves, s.Gains sh moves ((sh.performAll c stages).run s).2 ∧
          ∀ d, .did d ∈ moves → ∃ stage ∈ stages, sh.Runs c s.cwd moves stage d) ∧
    (∀ (path : Path) (s : Session) (fault : Fault), sh.directory s.cwd path = .error fault →
      (∀ body : List Step,
        (Step.cd path body).play sh s = ⟨.error fault, s, [⟨s.cwd, .cdFailed fault⟩]⟩) ∧
      ∀ (α : Type) (body : Path → Act α), (sh.inside path body).run s = (.error fault, s)) := by
  refine ⟨fun step s => ?_, fun steps s => ?_, fun c stage s => ?_, fun c stages s => ?_,
    fun path s fault hdir => ?_⟩
  · obtain ⟨moves, hgains, hdoes⟩ := Step.play_scoped sh step s
    exact ⟨restores_of_gains hgains, moves, hgains, hdoes⟩
  · obtain ⟨moves, hgains, hdoes⟩ := Step.playAll_scoped sh steps s
    exact ⟨restores_of_gains hgains, moves, hgains, hdoes⟩
  · obtain ⟨moves, hgains, -⟩ := sh.perform_makes c s stage
    exact restores_of_gains hgains
  · obtain ⟨moves, hgains, hkept⟩ := sh.performAll_makes c s stages
    exact ⟨restores_of_gains hgains, moves, hgains, hkept.place moves (List.Subset.refl _)⟩
  · refine ⟨fun body => ?_, fun _ => sh.run_inside_of_error s hdir⟩
    rw [Step.play, sh.run_target_of_error s hdir]

theorem eq_error_of_faultOf {α : Type} {r : Except Fault α} {fault : Fault}
    (h : faultOf r = some fault) : r = .error fault := by
  cases r with
  | ok a => cases h
  | error fault' =>
      cases h
      rfl

/-- A live shell in a repository with a link that leads to itself, where `false` fails. -/
def loopShell : Shell where
  world :=
    let world := sampleWorld "/usr/local" fun argv =>
      if argv = ["false"].map Text.ofString then 1 else 0
    { world with files := world.files.create ["srv", "book", "docs", "loop"] (.link "loop") }
  context :=
    { runId := "r1", root := .ofNames ["srv", "book"], logJson := false, verbose := false,
      quiet := false, dryRun := false, ci := false, refName := none }

/-- Commands around blocks that fail, some of which are caught. -/
def loopSteps : List Step :=
  [.cd (.parse "docs")
    [.attempt [.cd (.parse "loop") [.run [.text "pwd"]]],
      .attempt [.cd (.parse "..") [.run [.text "false"], .run [.text "pwd"]]],
      .run [.text "pwd"]],
    .capture [.text "pwd"]]

/-- The link is not entered, and each command runs in the directory of the block around it. -/
theorem directories_scoped_of_loop :
    let start : Session := { cwd := .ofNames ["srv", "book"] }
    let docs : Session := start.enter (.ofNames ["srv", "book", "docs"])
    let looping : Path := .ofNames ["srv", "book", "docs", "loop"]
    (Step.playAll loopShell loopSteps start).session.stack = [.ofNames ["srv", "book"]] ∧
    (Step.playAll loopShell loopSteps start).session.history.map Executed.key =
      [([Text.ofString "false"], .ofNames ["srv", "book"]),
        ([Text.ofString "pwd"], .ofNames ["srv", "book", "docs"]),
        ([Text.ofString "pwd"], .ofNames ["srv", "book"])] ∧
    loopShell.directory docs.cwd (.parse "loop") = .error (.unresolved (.linkLoop looping)) ∧
    (Step.cd (.parse "loop") [.run [.text "pwd"]]).play loopShell docs =
      ⟨.error (.unresolved (.linkLoop looping)), docs,
        [⟨docs.cwd, .cdFailed (.unresolved (.linkLoop looping))⟩]⟩ := by
  obtain ⟨-, hprogram, -, -, hunresolved⟩ := directories_scoped loopShell
  have hloop : loopShell.directory (.ofNames ["srv", "book", "docs"]) (.parse "loop") =
      .error (.unresolved (.linkLoop (.ofNames ["srv", "book", "docs", "loop"]))) :=
    eq_error_of_faultOf (by decide +kernel)
  refine ⟨(hprogram loopSteps _).1.stack, by decide +kernel, hloop, ?_⟩
  exact (hunresolved _ _ _ hloop).1 _

end Shell
end Bindery
