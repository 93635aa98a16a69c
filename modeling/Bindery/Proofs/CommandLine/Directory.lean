import Bindery.Proofs.CommandLine.Exit
import Bindery.Proofs.Pipeline.Publish
import Bindery.Proofs.Pipeline.Stuck

/-!
# Exit codes and directories

The pipeline works in two directories that the configuration and the package manager name.  If
the system takes the words of the plan and its limit, a run in steady surroundings ends well, or
with the exit code of a failed command, as long as both directories have a resolution, whatever is
there (`DirectoryExit.resolved`, `DirectoryExit.closed`).

It ends with the exit code for any other fault exactly if it comes to a directory without a
resolution, or to a command that the system does not handle.  Among texts that the system takes,
only those that lead into a loop of links have no resolution (`run_directoryExit`).
-/

namespace Bindery.CommandLine

variable {s : Surroundings} {r : Request} {c : Config} {path : Option Path} {argv : List Text}

/-- The directory of the process has no link on its way. -/
def Surroundings.IsSettled (s : Surroundings) : Prop :=
  s.world.files.resolve s.world.current (.ofNames s.world.current) =
    .ok (.ofNames s.world.current)

/-- What the package manager says about where it installs, in the run of a request. -/
def baseOf (s : Surroundings) (r : Request) (c : Config) : Text :=
  (shellOf s r c).baseFrom c (.ofNames s.world.current) []

/-- The directory of the book. -/
def docsOf (s : Surroundings) (r : Request) (c : Config) : Except Shell.Fault Path :=
  (shellOf s r c).directory (.ofNames s.world.current) (.parse c.docsDir)

/-- The directory where the dependency is pinned. -/
def modulesOf (s : Surroundings) (r : Request) (c : Config) : Except Shell.Fault Path :=
  (shellOf s r c).directory (.ofNames s.world.current) (Shell.modulesBelow c (baseOf s r c))

/-- The session in which the pipeline of a request starts. -/
def bookSession (s : Surroundings) (r : Request) (path : Option Path) : Session :=
  { cwd := .ofNames s.world.current, machine := started s r path }

/-- The history that the pipeline of a request leaves. -/
def historyOf (s : Surroundings) (r : Request) (c : Config) (path : Option Path) : List Executed :=
  (((shellOf s r c).runBook (.ofConfig c)).run (bookSession s r path)).2.history

/-- The texts that lead to the two directories are taken by the system, those in links
included. -/
structure TakenTexts (s : Surroundings) (r : Request) (c : Config) : Prop where
  docs : FileSystem.pathFault? c.docsDir = none
  modules : FileSystem.pathFault? c.nestedModulesPath = none
  base : FileSystem.pathFault? (baseOf s r c) = none
  links : ∀ place target, s.world.files.entry? place = some (.link target) →
    FileSystem.pathFault? target = none

/-- The system takes all words of the plan, and can wait for a child under the limit. -/
structure TakenWords (s : Surroundings) (r : Request) (c : Config) : Prop where
  words : ∀ p, .ok p ∈ (shellOf s r c).plan c (.ofNames s.world.current) (baseOf s r c) →
    ∀ word ∈ p.argv, FileSystem.pathFault? word = none
  limit : ∀ capture, c.timeoutSeconds.waitFault? capture = none

/-- What the directories of the pipeline mean for the exit code of a run. -/
structure DirectoryExit (s : Surroundings) (r : Request) (c : Config) (path : Option Path)
    (exit : Int) : Prop where
  range : exit = 0 ∨ exit = 4 ∨ exit = 99
  /-- Directories with a resolution are no fault of the program itself, whatever is there. -/
  resolved : TakenWords s r c → (∃ dir, docsOf s r c = .ok dir) →
    ((context s r).ci = true → baseOf s r c ≠ [] → ∃ dir, modulesOf s r c = .ok dir) →
    exit = 0 ∨ exit = 4
  /-- A run does not end well if it cannot enter one of them. -/
  closed : ∀ dir walk,
    docsOf s r c = .ok dir ∨ (context s r).ci = true ∧ modulesOf s r c = .ok dir →
    s.world.files.enter s.world.current dir = .error walk → exit ≠ 0
  /-- The run comes to a directory without a resolution, or to a command that the system refuses
  or cannot wait for, and all commands in front of it end well. -/
  unresolved : exit = 99 ↔ ∃ front next,
    Shell.ComesTo ((shellOf s r c).plan c (.ofNames s.world.current) (baseOf s r c))
        (historyOf s r c path) front next ∧
      ((∃ f, next = .error (.unresolved f)) ∨ ∃ p, next = .ok p ∧
        ¬s.world.Handles (front.map (shellOf s r c).command) ((shellOf s r c).command p))
  /-- Such a directory leads into a loop of links. -/
  looping : TakenTexts s r c → TakenWords s r c → exit = 99 → ∃ loop,
    (docsOf s r c = .error (.unresolved (.linkLoop loop)) ∨
      (context s r).ci = true ∧ modulesOf s r c = .error (.unresolved (.linkLoop loop))) ∧
    s.world.files.walk s.world.current loop = .error .linkLoop

/-! ## The pipeline of a request -/

theorem openAt_of_isSettled (h : s.IsSettled) (c : Config) (m : Machine) :
    (shellOf s r c).openAt none m = .ok { cwd := .ofNames s.world.current, machine := m } := by
  unfold Shell.openAt
  have hroot : (shellOf s r c).world.files.resolve (shellOf s r c).world.current
      ((none : Option Path).getD (shellOf s r c).context.root) =
        .ok (.ofNames s.world.current) := h
  rw [hroot]
  rfl

theorem bookOf_of_isSettled (h : s.IsSettled) (c : Config) (path : Option Path) :
    bookOf s r c path =
      (((shellOf s r c).runBook (.ofConfig c)).run (bookSession s r path)).1 := by
  rw [bookOf, bookOutcome, openAt_of_isSettled h]
  rfl

theorem allTaken_base (h : TakenTexts s r c) :
    FileSystem.AllTaken (Shell.modulesBelow c (baseOf s r c)).parts :=
  FileSystem.allTaken_div (FileSystem.allTaken_parse h.base) (FileSystem.allTaken_parse h.modules)

/-- Without a resolution, taken texts lead into a loop. -/
theorem loop_of_directory {dir : Path} {fault : Shell.Fault} (h : TakenTexts s r c)
    (hcurrent : FileSystem.AllTaken s.world.current) (hdir : FileSystem.AllTaken dir.parts)
    (hfault : (shellOf s r c).directory (.ofNames s.world.current) dir = .error fault) :
    ∃ loop, fault = .unresolved (.linkLoop loop) ∧
      s.world.files.walk s.world.current loop = .error .linkLoop := by
  obtain ⟨f, rfl, hresolve⟩ := Shell.exists_unresolved_of_directory hfault
  obtain ⟨loop, rfl, hwalk⟩ := FileSystem.resolve_eq_error hcurrent h.links
    (FileSystem.allTaken_div hcurrent hdir) hresolve
  exact ⟨loop, rfl, hwalk⟩

/-- A command in each of the two directories is planned. -/
theorem mem_plan_of_directory {dir : Path}
    (h : docsOf s r c = .ok dir ∨ (context s r).ci = true ∧ modulesOf s r c = .ok dir) :
    ∃ p : Planned, p.cwd = dir ∧
      .ok p ∈ (shellOf s r c).plan c (.ofNames s.world.current) (baseOf s r c) := by
  rcases h with hdocs | ⟨hci, hmodules⟩
  · refine ⟨⟨[c.npm, "install"], dir, none⟩, rfl, List.mem_flatMap.2 ⟨.buildSite, by decide, ?_⟩⟩
    unfold docsOf at hdocs
    simp only [Shell.stagePlan, hdocs]
    exact .head _
  · refine ⟨⟨Shell.pinCommand c, dir, none⟩, rfl,
      List.mem_flatMap.2 ⟨.patchCiDependency, by decide, ?_⟩⟩
    have hci' : (shellOf s r c).context.ci = true := hci
    unfold modulesOf at hmodules
    simp only [Shell.stagePlan, hci', if_true, hmodules]
    exact .tail _ (.head _)

/-- The program itself is at fault exactly if the pipeline is stuck. -/
theorem bookOf_other_iff (hsettled : s.IsSettled) (live : (context s r).dryRun = false)
    (hsteady : (shellOf s r c).Steady (started s r path)) :
    (∃ fault, bookOf s r c path = .error fault ∧ ∀ f, fault ≠ .commandFailed f) ↔
      ∃ front next,
        Shell.ComesTo ((shellOf s r c).plan c (.ofNames s.world.current) (baseOf s r c))
            (historyOf s r c path) front next ∧
          ((∃ f, next = .error (.unresolved f)) ∨ ∃ p, next = .ok p ∧
            ¬s.world.Handles (front.map (shellOf s r c).command) ((shellOf s r c).command p)) := by
  rw [bookOf_of_isSettled hsettled]
  exact Shell.runBook_other_iff (s := bookSession s r path) live hsteady rfl
    fun _ => Context.trim_ref_ne_nil

/-- If the system takes the words and the limit, only a directory without a resolution is in the
way. -/
theorem directory_of_stuck (hcurrent : FileSystem.AllTaken s.world.current)
    (htaken : TakenWords s r c) {front : List Planned} {next : Except Shell.Fault Planned}
    (hcomes : Shell.ComesTo ((shellOf s r c).plan c (.ofNames s.world.current) (baseOf s r c))
      (historyOf s r c path) front next)
    (hnext : (∃ f, next = .error (.unresolved f)) ∨ ∃ p, next = .ok p ∧
      ¬s.world.Handles (front.map (shellOf s r c).command) ((shellOf s r c).command p)) :
    ∃ f, docsOf s r c = .error (.unresolved f) ∨
      (context s r).ci = true ∧ baseOf s r c ≠ [] ∧ modulesOf s r c = .error (.unresolved f) := by
  rcases hnext with ⟨f, rfl⟩ | ⟨p, rfl, hnot⟩
  · exact ⟨f, Shell.directory_of_comesTo (fun _ => Context.trim_ref_ne_nil) hcomes⟩
  · obtain ⟨rest, hplan⟩ := hcomes.split
    have hmem : .ok p ∈ (shellOf s r c).plan c (.ofNames s.world.current) (baseOf s r c) := by
      rw [hplan]
      simp
    refine absurd ?_ hnot
    refine Shell.handles_of_mem_plan hcurrent (FileSystem.pathFault?_text.2 hcurrent) hmem
      (htaken.words p hmem) fun n hn capture => ?_
    cases hn
    exact htaken.limit capture

/-- A pipeline that has records entered both directories. -/
theorem enter_of_bookOf_ok (hsettled : s.IsSettled) (live : (context s r).dryRun = false)
    {records : List StageRecord} {dir : Path} {walk : FileSystem.WalkFault}
    (h : bookOf s r c path = .ok records)
    (hdir : docsOf s r c = .ok dir ∨ (context s r).ci = true ∧ modulesOf s r c = .ok dir) :
    s.world.files.enter s.world.current dir ≠ .error walk := by
  intro hwalk
  rw [bookOf_of_isSettled hsettled] at h
  obtain ⟨ran, commands, hext, hcourse, -⟩ :=
    (shellOf s r c).runBook_follows (c := c) (bookSession s r path)
  rw [h] at hcourse
  obtain ⟨-, hkeys, hzero, -⟩ := hcourse.of_ok
  obtain ⟨p, rfl, hp⟩ := mem_plan_of_directory hdir
  have hkey : (.ok p.key : Except Shell.Fault (List Text × Path)) ∈ ran.map (.ok ·.key) := by
    rw [hkeys]
    exact List.mem_map.2 ⟨.ok p, hp, rfl⟩
  obtain ⟨e, he, hpe⟩ := List.mem_map.1 hkey
  have hcwd : e.cwd = p.cwd := congrArg Prod.snd (Except.ok.inj hpe)
  have henter : (shellOf s r c).world.files.enter (shellOf s r c).world.current e.cwd =
      .error walk := hcwd ▸ hwalk
  have hhistory : e ∈
      (((shellOf s r c).runBook (.ofConfig c)).run (bookSession s r path)).2.history := by
    rw [hext.history]
    exact List.mem_append_right _ he
  exact Shell.code_ne_zero_of_runBook live hhistory List.not_mem_nil henter (hzero e he)

/-- A repository whose directory of the book is something else. -/
def bookless (entry : Entry) : Surroundings :=
  let sample := sampleSurroundings "/usr/local" fun _ => 0
  let files := sample.world.files.create ["srv", "book", "docs"] entry
  { sample with world := { sample.world with files } }

theorem bookless_steady (entry : Entry) :
    (shellOf (bookless entry) plainRun {}).Steady (started (bookless entry) plainRun none) :=
  Shell.steady_of_still rfl rfl rfl (by decide +kernel)

/-- A repository that asks for more seconds than the system waits for a process whose output is
captured. -/
def patient : Surroundings :=
  let sample := sampleSurroundings "/usr/local" fun _ => 0
  let files := sample.world.files.create ["srv", "book", "configs", "book.yaml"]
    (.file "timeout_seconds: 2592000\n".toUTF8.toList)
  let children before c := { sample.world.children before c with isProcess := true }
  { sample with world := { sample.world with files, children } }

end Bindery.CommandLine
