import Bindery.Proofs.Pipeline.History
import Bindery.Proofs.Pipeline.Scope
import Bindery.Proofs.Shell.Ledger

/-!
# Where the pipeline is stuck

A pipeline in steady surroundings ends in one of four ways.  It has records, a command fails, a
directory has no resolution, or the system does not handle a command: it refuses the command, or
cannot wait for its child.  The last two ends are told by how far the history goes through the
plan (`runBook_other_iff`).

A directory that has a resolution and cannot be entered lets its commands fail
(`code_ne_zero_of_enter`).
-/

namespace Bindery
namespace Shell

variable {sh : Shell} {c : Config} {s : Session} {start : Path} {base : Text} {plan : Plan}
  {stage : Stage} {moves : List Move} {d : Deed} {p : Planned} {fault : Fault}
  {before : List Command} {readings : List Number}

/-! ## Steady surroundings -/

/-- The surroundings of a shell let every command have a result that the system handles. -/
structure Steady (sh : Shell) (m : Machine) : Prop where
  /-- The system takes the directory of the process. -/
  current : FileSystem.AllTaken sh.world.current
  /-- The time that a command takes can be measured and written. -/
  clock : Machine.IsMeasurable m.readings
  /-- The limit is a number. -/
  limited : ∃ n, sh.seconds.number? = some n
  /-- A child is stopped when the seconds of the limit have passed, and so many can pass only
  if their number can be written. -/
  stopped : ∀ before c, c.timeout = some sh.seconds → sh.world.Starts before c →
    sh.world.Exceeds before c → sh.seconds.isWritable = true

/-- A shell in the repository is steady if its clock stands still and its limit can be
written. -/
theorem steady_of_still {m : Machine} {n : Number} (hcurrent : sh.world.current = ["srv", "book"])
    (hclock : m.readings = [.int 0]) (hseconds : sh.seconds = .number n)
    (hlimit : n.isWritable = true) : sh.Steady m where
  current := by
    rw [hcurrent]
    intro name hname
    have hnames : name ∈ [Text.ofString "srv", Text.ofString "book"] := hname
    simp only [List.mem_cons, List.not_mem_nil, or_false] at hnames
    rcases hnames with rfl | rfl <;> decide
  clock := by
    rw [hclock]
    intro started hstarted ended hended
    cases List.mem_singleton.1 hstarted
    cases List.mem_singleton.1 hended
    exact ⟨0, rfl, by decide +kernel⟩
  limited := ⟨n, congrArg Value.number? hseconds⟩
  stopped _ _ _ _ _ := hseconds ▸ hlimit

/-- In steady surroundings a command has no result only if the system does not handle it. -/
theorem Steady.not_handles {m : Machine} {f : Machine.Fault} (h : sh.Steady m)
    (hne : p.argv ≠ []) (hloses : sh.Loses m.readings before p f) :
    ¬sh.world.Handles before (sh.command p) := by
  rintro ⟨htakes, hwaits⟩
  obtain ⟨m', rfl, hreadings, hrun⟩ := hloses
  obtain ⟨n, hn⟩ := h.limited
  have hanswered : Machine.IsAnswered sh.world p.argv p.cwd p.output.isSome sh.seconds m' :=
    { named := hne
      taken := htakes
      waits := hwaits
      limited := ⟨n, hn⟩
      measurable := fun started hs ended he => h.clock started (hreadings hs) ended (hreadings he)
      stopped := fun hstarts hexceeds =>
        h.stopped m'.commands _ (Machine.timeout_of_exceeds hn hexceeds) hstarts hexceeds }
  obtain ⟨r, m₁, hok⟩ := Machine.exists_run_ok sh.context hanswered
  rw [hok] at hrun
  cases hrun

/-! ## The deeds of the pipeline -/

/-- The words of all commands of the pipeline are texts. -/
theorem Runs.named (h : sh.Runs (.ofConfig c) start moves stage d) : IsNamed d.words := by
  cases h with
  | versions h => exact ⟨[c.npm, "version"], List.cons_ne_nil _ _, h.words⟩
  | toolchain h =>
      exact ⟨[c.npm, "install", "-g", c.toolchainPackage], List.cons_ne_nil _ _, h.words⟩
  | query h => exact ⟨baseQuery c, List.cons_ne_nil _ _, h.words⟩
  | pin hquery his hanswer hmodules hdir h =>
      exact ⟨pinCommand c, List.cons_ne_nil _ _, h.words⟩
  | build hwords hdocs hdir h =>
      have hbuild : buildWords (.ofConfig c) = (buildCommands c).map (List.map .text) := rfl
      rw [hbuild] at hwords
      obtain ⟨argv, hargv, rfl⟩ := List.mem_map.1 hwords
      refine ⟨argv, ?_, h.words⟩
      rintro rfl
      simp [buildCommands] at hargv
  | @upload _ ref words href hwords h =>
      rw [Settings.uploadCommand_ofConfig, Config.uploadCommand?] at hwords
      cases hplace : c.destination? ref with
      | none =>
          rw [hplace] at hwords
          cases hwords
      | some place =>
          rw [hplace] at hwords
          cases hwords
          exact ⟨_, List.cons_ne_nil _ _, h.words⟩

/-- The pipeline runs its commands where they belong. -/
theorem runBook_makes (sh : Shell) (c : Settings) (s : Session) : (sh.runBook c).Makes sh s
    (Kept fun all d => ∃ stage ∈ Stage.all, sh.Runs c s.cwd all stage d) := by
  refine Kept.mapM fun stage _ s' hs' => ?_
  rw [← hs']
  refine Kept.bind (sh.perform_makes c s' stage) fun r _ _ => ?_
  exact Kept.bind (Kept.log r.event) fun _ _ _ => Kept.pure

/-- A live command in a directory that cannot be entered fails. -/
theorem code_ne_zero_of_enter {r : Result} {walk : FileSystem.WalkFault}
    (live : sh.context.dryRun = false) (hgives : sh.Gives readings before d)
    (hnamed : IsNamed d.words) (hanswer : d.answer = .ok r)
    (henter : sh.world.files.enter sh.world.current d.cwd = .error walk) : r.code ≠ 0 := by
  obtain ⟨m, -, -, hgiven⟩ := hgives
  obtain ⟨argv, -, hwords⟩ := hnamed
  rw [hanswer, respond, live, hwords, Machine.runWords, Value.texts?_map_text] at hgiven
  have hending : sh.world.endingOf m.commands (Machine.command argv d.cwd d.capture sh.seconds) =
      .notStarted walk.toSystem (some d.cwd.literal) := by
    rw [World.endingOf, Child.ending, Machine.command, henter]
  rcases Machine.run_cases sh.world sh.context argv d.cwd d.capture sh.seconds m with
    ⟨millis, m', hrun, -⟩ | ⟨fault, m', hrun, -⟩
  · simp only [Bool.false_eq_true, if_false, hrun, hending] at hgiven
    cases hgiven
    exact SystemFault.exitCode_ne_zero _
  · simp only [Bool.false_eq_true, if_false, hrun] at hgiven
    cases hgiven

/-- No command of the pipeline ends well in a directory that cannot be entered. -/
theorem code_ne_zero_of_runBook (live : sh.context.dryRun = false) {e : Executed}
    (he : e ∈ ((sh.runBook (.ofConfig c)).run s).2.history) (hnew : e ∉ s.history)
    {walk : FileSystem.WalkFault}
    (hwalk : sh.world.files.enter sh.world.current e.cwd = .error walk) : e.code ≠ 0 := by
  obtain ⟨moves, hgains, hkept⟩ := sh.runBook_makes (.ofConfig c) s
  rw [hgains.history, flatMap_entries] at he
  obtain ⟨d, hd, he⟩ := List.mem_flatMap.1 ((List.mem_append.1 he).resolve_left hnew)
  obtain ⟨stage, -, hruns⟩ := hkept.place moves (List.Subset.refl _) d (mem_of_mem_deeds hd)
  obtain ⟨before, hgives⟩ := hgains.gives.of_mem (mem_of_mem_deeds hd)
  cases hanswer : d.answer with
  | error f =>
      rw [entries_of_error hanswer] at he
      cases he
  | ok r =>
      rw [entries_of_ok hanswer] at he
      cases List.mem_singleton.1 he
      exact code_ne_zero_of_enter live hgives hruns.named hanswer hwalk

/-! ## Faults of the plan -/

/-- Only a directory without a resolution is a fault of the plan, if the ref to publish is not
blank. -/
theorem directory_of_error_mem_plan
    (href : ∀ ref, sh.context.ref? = some ref → Text.trim ref ≠ [])
    (h : .error fault ∈ sh.plan c start base) :
    sh.directory start (.parse c.docsDir) = .error fault ∨
      sh.context.ci = true ∧ sh.directory start (modulesBelow c base) = .error fault := by
  have hin {dir : Except Fault Path} {argvs : List (List Text)}
      (hmem : .error fault ∈ planIn dir argvs) : dir = .error fault := by
    obtain ⟨argv, -, hargv⟩ := List.mem_map.1 hmem
    cases dir with
    | ok cwd => cases hargv
    | error fault' =>
        cases hargv
        rfl
  obtain ⟨stage, -, hstage⟩ := List.mem_flatMap.1 h
  cases stage with
  | printVersions => cases List.mem_singleton.1 hstage
  | installToolchain => cases List.mem_singleton.1 hstage
  | patchCiDependency =>
      rw [stagePlan] at hstage
      split at hstage
      · next hci =>
          rcases List.mem_cons.1 hstage with hquery | hpin
          · cases hquery
          · exact .inr ⟨hci, hin hpin⟩
      · cases hstage
  | buildSite => exact .inl (hin hstage)
  | publishSite =>
      rw [stagePlan] at hstage
      split at hstage
      · cases hstage
      · next ref hsome =>
          have hupload := List.mem_singleton.1 hstage
          simp only [uploadOf, Config.uploadCommand?, Config.destination?, List.isEmpty_iff,
            href ref hsome, if_false, Option.map_some] at hupload
          cases hupload

theorem exists_unresolved_of_directory {path : Path} (h : sh.directory start path = .error fault) :
    ∃ f, fault = .unresolved f ∧
      sh.world.files.resolve sh.world.current (start / path) = .error f := by
  unfold directory at h
  cases hresolve : sh.world.files.resolve sh.world.current (start / path) with
  | ok dir =>
      rw [hresolve] at h
      cases h
  | error f =>
      rw [hresolve] at h
      cases h
      exact ⟨f, rfl, rfl⟩

/-- A pipeline that comes to a fault of its plan comes to a directory without a resolution: the
one of the book, or the one of the modules if the package manager named one. -/
theorem directory_of_comesTo {history : List Executed} {front : List Planned}
    (href : ∀ ref, sh.context.ref? = some ref → Text.trim ref ≠ [])
    (h : ComesTo (sh.plan c start base) history front (.error fault)) :
    sh.directory start (.parse c.docsDir) = .error fault ∨
      sh.context.ci = true ∧ base ≠ [] ∧
        sh.directory start (modulesBelow c base) = .error fault := by
  obtain ⟨rest, hplan⟩ := h.split
  have hmem : .error fault ∈ sh.plan c start base := by
    rw [hplan]
    simp
  refine (directory_of_error_mem_plan href hmem).imp_right ?_
  rintro ⟨hci, hmodules⟩
  refine ⟨hci, ?_, hmodules⟩
  -- The fault stands behind three commands, and the third one asks for the directory.
  rintro rfl
  have hquery : (⟨baseQuery c, start, some []⟩ : Planned) ∈ front := by
    obtain ⟨behind, hfront⟩ : ∃ behind, sh.plan c start [] =
        .ok ⟨[c.npm, "version"], start, none⟩ ::
          .ok ⟨[c.npm, "install", "-g", c.toolchainPackage], start, none⟩ ::
            .ok ⟨baseQuery c, start, some []⟩ :: behind := by
      simp only [plan, Stage.all, List.flatMap_cons, stagePlan, hci, if_true, List.cons_append,
        List.nil_append]
      exact ⟨_, rfl⟩
    rw [hfront] at hplan
    rcases front with _ | ⟨first, _ | ⟨second, _ | ⟨third, front⟩⟩⟩
    · cases hplan
    · cases hplan
    · cases hplan
    · cases hplan
      simp
  exact h.answered _ hquery rfl

/-! ## Commands of the plan -/

/-- A planned command has a program, and runs where the pipeline starts or in a directory that
was resolved. -/
theorem mem_plan (h : .ok p ∈ sh.plan c start base) : p.argv ≠ [] ∧
    (p.cwd = start ∨ ∃ path, sh.directory start path = .ok p.cwd) := by
  have hin {path : Path} {argvs : List (List Text)} (hne : [] ∉ argvs)
      (hmem : .ok p ∈ planIn (sh.directory start path) argvs) :
      p.argv ≠ [] ∧ (p.cwd = start ∨ ∃ path, sh.directory start path = .ok p.cwd) := by
    obtain ⟨argv, hargv, hp⟩ := List.mem_map.1 hmem
    cases hdir : sh.directory start path with
    | error fault =>
        rw [hdir] at hp
        cases hp
    | ok dir =>
        rw [hdir] at hp
        cases hp
        refine ⟨?_, .inr ⟨path, hdir⟩⟩
        rintro rfl
        exact hne hargv
  obtain ⟨stage, -, hstage⟩ := List.mem_flatMap.1 h
  cases stage with
  | printVersions =>
      cases List.mem_singleton.1 hstage
      exact ⟨List.cons_ne_nil _ _, .inl rfl⟩
  | installToolchain =>
      cases List.mem_singleton.1 hstage
      exact ⟨List.cons_ne_nil _ _, .inl rfl⟩
  | patchCiDependency =>
      rw [stagePlan] at hstage
      split at hstage
      · rcases List.mem_cons.1 hstage with hquery | hpin
        · cases hquery
          exact ⟨List.cons_ne_nil _ _, .inl rfl⟩
        · exact hin (by simp [pinCommand]) hpin
      · cases hstage
  | buildSite => exact hin (by simp [buildCommands]) hstage
  | publishSite =>
      rw [stagePlan] at hstage
      split at hstage
      · cases hstage
      · next ref _ =>
          have hupload := List.mem_singleton.1 hstage
          unfold uploadOf Config.uploadCommand? at hupload
          cases hplace : c.destination? ref with
          | none =>
              rw [hplace] at hupload
              cases hupload
          | some place =>
              rw [hplace] at hupload
              cases hupload
              exact ⟨List.cons_ne_nil _ _, .inl rfl⟩

/-- The system handles a planned command if it takes its words and can wait under the limit. -/
theorem handles_of_mem_plan (hcurrent : FileSystem.AllTaken sh.world.current)
    (hstart : FileSystem.pathFault? start.text = none) (h : .ok p ∈ sh.plan c start base)
    (hwords : ∀ word ∈ p.argv, FileSystem.pathFault? word = none)
    (hlimit : ∀ n, sh.seconds.number? = some n → ∀ capture, n.waitFault? capture = none) :
    sh.world.Handles before (sh.command p) := by
  obtain ⟨hne, hcwd⟩ := mem_plan h
  have htaken : FileSystem.pathFault? p.cwd.text = none := by
    rcases hcwd with hcwd | ⟨path, hdir⟩
    · rwa [hcwd]
    · exact pathFault?_of_directory hcurrent hdir
  exact ⟨(Machine.refusal?_eq_none_iff hne).2 ⟨fun _ => hwords, htaken⟩,
    fun _ => Machine.waitFault?_eq_none fun n hn => hlimit n hn _⟩

/-! ## Being stuck -/

/-- A pipeline in steady surroundings has neither records nor a failed command if and only if it
comes to a directory without a resolution, or to a command that the system does not handle. -/
theorem runBook_other_iff (live : sh.context.dryRun = false) (hsteady : sh.Steady s.machine)
    (hnil : s.history = []) (href : ∀ ref, sh.context.ref? = some ref → Text.trim ref ≠ []) :
    (∃ fault, ((sh.runBook (.ofConfig c)).run s).1 = .error fault ∧
        ∀ f, fault ≠ .commandFailed f) ↔
      ∃ front next, ComesTo (sh.plan c s.cwd (sh.baseFrom c s.cwd s.machine.commands))
          ((sh.runBook (.ofConfig c)).run s).2.history front next ∧
        ((∃ f, next = .error (.unresolved f)) ∨ ∃ p, next = .ok p ∧
          ¬sh.world.Handles (s.machine.commands ++ front.map sh.command) (sh.command p)) := by
  obtain ⟨ran, commands, hext, hcourse, -⟩ := sh.runBook_follows (c := c) s
  have hhistory : ((sh.runBook (.ofConfig c)).run s).2.history = ran := by
    rw [hext.history, hnil, List.nil_append]
  have hstarted (front : List Planned) : front.flatMap sh.started = front.map sh.command := by
    rw [List.map_eq_flatMap]
    refine List.flatMap_congr fun p _ => ?_
    rw [started, live]
    rfl
  rw [hhistory]
  constructor
  · rintro ⟨fault, hfault, hother⟩
    rw [hfault] at hcourse
    obtain ⟨front, next, hcomes, hnext⟩ := hcourse.comesTo_of_error hother
    refine ⟨front, next, hcomes, ?_⟩
    rcases hnext with rfl | ⟨p, f, rfl, -, hloses⟩
    · have hdir : ∃ path, sh.directory s.cwd path = .error fault := by
        rcases directory_of_comesTo href hcomes with hdocs | ⟨-, -, hmodules⟩
        · exact ⟨_, hdocs⟩
        · exact ⟨_, hmodules⟩
      obtain ⟨path, hpath⟩ := hdir
      obtain ⟨f, rfl, -⟩ := exists_unresolved_of_directory hpath
      exact .inl ⟨f, rfl⟩
    · obtain ⟨rest, hplan⟩ := hcomes.split
      have hmem : .ok p ∈ sh.plan c s.cwd (sh.baseFrom c s.cwd s.machine.commands) := by
        rw [hplan]
        simp
      rw [hstarted] at hloses
      exact .inr ⟨p, rfl, hsteady.not_handles (mem_plan hmem).1 hloses⟩
  · rintro ⟨front, next, hcomes, ⟨f, rfl⟩ | ⟨p, rfl, -⟩⟩
    · exact ⟨_, hcourse.eq_error_of_comesTo hcomes, by simp⟩
    · obtain ⟨f, hf⟩ := hcourse.lost_of_comesTo hcomes
      exact ⟨_, hf, by simp⟩

end Shell
end Bindery
