import Bindery.Proofs.Pipeline.Plan

/-!
# The history of the pipeline

`PlannedHistory` says how the history of a run relates to its plan: it is a front of the
plan, only its last command may have failed, the run has records exactly at the end of the
plan, and a failed command is the last one of the history.  `runBook_plannedHistory` says
this of every run that is not dry.
-/

namespace Bindery
namespace Shell

variable {sh : Shell} {c : Config}

/-! ## The query in a plan -/

theorem output_of_mem_planIn {dir : Except Fault Path} {argvs : List (List Text)} {p : Planned}
    (h : .ok p ∈ planIn dir argvs) : p.output = none := by
  obtain ⟨argv, -, hp⟩ := List.mem_map.1 h
  cases dir with
  | error fault => cases hp
  | ok cwd =>
      cases hp
      rfl

/-- Only the query for the place where the package manager installs has an output. -/
theorem eq_query_of_mem_plan {start : Path} {base output : Text} {p : Planned}
    (h : .ok p ∈ sh.plan c start base) (houtput : p.output = some output) :
    sh.context.ci = true ∧ p = ⟨baseQuery c, start, some base⟩ := by
  obtain ⟨stage, -, hp⟩ := List.mem_flatMap.1 h
  cases stage with
  | printVersions =>
      cases List.mem_singleton.1 hp
      cases houtput
  | installToolchain =>
      cases List.mem_singleton.1 hp
      cases houtput
  | patchCiDependency =>
      rw [stagePlan] at hp
      split at hp
      · next hci =>
          rcases List.mem_cons.1 hp with hq | hq
          · exact ⟨hci, Except.ok.inj hq⟩
          · rw [output_of_mem_planIn hq] at houtput
            cases houtput
      · cases hp
  | buildSite =>
      rw [output_of_mem_planIn hp] at houtput
      cases houtput
  | publishSite =>
      rw [stagePlan] at hp
      split at hp
      · cases hp
      · next ref _ =>
          have hq := List.mem_singleton.1 hp
          cases hu : uploadOf c ref with
          | error fault =>
              rw [hu] at hq
              cases hq
          | ok argv =>
              rw [hu] at hq
              cases hq
              cases houtput

/-! ## Histories -/

/-- How a run of the pipeline from a fresh session relates to its plan, if the package
manager says that it installs in `base`. -/
structure PlannedHistory (sh : Shell) (c : Config) (s : Session) (base : Text)
    (run : Except Fault (List StageRecord) × Session) : Prop where
  /-- The commands that ended are a front of the plan. -/
  front : run.2.history.map (.ok ·.key) <+: (sh.plan c s.cwd base).keys
  /-- The commands that were started are a front of the plan. -/
  started : ∃ commands, run.2.machine.commands = s.machine.commands ++ commands ∧
    commands.map .ok <+: (sh.plan c s.cwd base).map fun p => p.map sh.command
  /-- Every command but the last one ended well. -/
  codes : ∀ e ∈ run.2.history.dropLast, e.code = 0
  /-- There are records exactly if all of the plan ended well. -/
  returns : (∃ rs, run.1 = .ok rs) ↔
    run.2.history.map (.ok ·.key) = (sh.plan c s.cwd base).keys ∧ ∀ e ∈ run.2.history, e.code = 0
  /-- A failed command is the last one, and its exit code is not 0 unless it is the query
  and printed nothing. -/
  fails : ∀ f, run.1 = .error (.commandFailed f) → ∃ e, run.2.history.getLast? = some e ∧
    f.argv = e.argv ∧ f.cwd = e.cwd ∧ f.code = e.code ∧
      (e.code ≠ 0 ∨ sh.context.ci = true ∧ e.key = (baseQuery c, s.cwd) ∧ base = [])

/-- A run of the pipeline goes through its plan up to the first command that fails. -/
theorem runBook_plannedHistory {start : Option Path} {m : Machine} {s : Session}
    (live : sh.context.dryRun = false) (hopen : sh.openAt start m = .ok s) :
    PlannedHistory sh c s (sh.baseFrom c s.cwd m.commands) ((sh.runBook (.ofConfig c)).run s) := by
  obtain ⟨ran, commands, hext, hcourse, -⟩ := sh.runBook_follows (c := c) s
  have hmachine : s.machine = m := by rw [eq_of_openAt hopen]
  have hnil : s.history = [] := by rw [eq_of_openAt hopen]
  have hhistory : ((sh.runBook (.ofConfig c)).run s).2.history = ran := by
    rw [hext.history, hnil, List.nil_append]
  rw [hmachine] at hcourse
  constructor
  · rw [hhistory]
    exact hcourse.prefix_keys
  · exact ⟨commands, hext.commands, hcourse.prefix_commands live⟩
  · rw [hhistory]
    exact hcourse.code_of_mem_dropLast
  · rw [hhistory]
    constructor
    · rintro ⟨rs, hrs⟩
      rw [hrs] at hcourse
      exact ⟨hcourse.of_ok.2.1, hcourse.of_ok.2.2.1⟩
    · rintro ⟨hkeys, hcodes⟩
      exact hcourse.exists_ok hkeys hcodes
  · intro f hf
    rw [hf] at hcourse
    obtain ⟨before, e, hran, hargv, hcwd, hcode, hreason⟩ := hcourse.of_commandFailed
    refine ⟨e, by rw [hhistory, hran, List.getLast?_concat], hargv, hcwd, hcode, ?_⟩
    refine hreason.imp_right ?_
    rintro ⟨p, hp, hkey, hblank⟩
    obtain ⟨hci, rfl⟩ := eq_query_of_mem_plan hp hblank
    exact ⟨hci, hkey.symm, Option.some.inj hblank⟩

/-- A live shell under continuous integration where the plugins of the book cannot be
installed. -/
def pluginlessShell : Shell where
  world := sampleWorld "/opt/node" fun argv =>
    if argv = ["gitbook", "install"].map Text.ofString then 3 else 0
  context :=
    { runId := "r1", root := .ofNames ["srv", "book"], logJson := true, verbose := false,
      quiet := false, dryRun := false, ci := true, refName := some "v1" }

/-- The sixth of eight commands fails, and the history ends there. -/
theorem pluginlessShell_history :
    PlannedHistory pluginlessShell {} { cwd := .ofNames ["srv", "book"] } "/opt/node"
      ((pluginlessShell.runBook (.ofConfig {})).run { cwd := .ofNames ["srv", "book"] }) ∧
    (((pluginlessShell.runBook (.ofConfig {})).run
      { cwd := .ofNames ["srv", "book"] }).2.history.map fun e => e.code) = [0, 0, 0, 0, 0, 3] := by
  have hbase : pluginlessShell.baseFrom {} (.ofNames ["srv", "book"]) [] = "/opt/node" := by
    decide +kernel
  refine ⟨?_, by decide +kernel⟩
  rw [← hbase]
  have hopen : pluginlessShell.openAt none {} = .ok { cwd := .ofNames ["srv", "book"] } := rfl
  exact runBook_plannedHistory rfl hopen

end Shell
end Bindery
