import Bindery.Proofs.CommandLine.PinnedVersion
import Bindery.Proofs.Config.Typed

/-!
# The time limit of commands

All commands of a run are started with the time limit of the configuration that is loaded for it
(`run_timeout`), or without one if that is 0 (`IsSound.limits`).  `configuration_typed` puts this
together with the types of the configuration.  So a limit that is given as a binary number is
what the commands are started with.
-/

namespace Bindery

namespace Machine

/-- The limit of 0 seconds is none. -/
theorem limitOf_of_isValue {x : Number} {n : Nat} (h : x.IsValue n) :
    limitOf (.number x) = if n = 0 then none else some (.number x) := by
  have hlimit : limitOf (.number x) = if x.isPositive then some (.number x) else none := rfl
  simp only [hlimit, h.isPositive_iff, Int.natCast_pos]
  split
  case isTrue hpos => rw [if_neg hpos.ne']
  case isFalse hzero => rw [if_pos (Nat.eq_zero_of_not_pos hzero)]

end Machine

namespace Config

variable {c : Config} {commands : List Command}

/-- All commands are started with the time limit of a configuration. -/
inductive Limits (c : Config) (commands : List Command) : Prop where
  /-- The limit is 0, and no command has one. -/
  | unlimited : c.timeoutSeconds.same (.int 0) = true →
      (∀ command ∈ commands, command.timeout = none) → Limits c commands
  /-- The limit is above 0, and all commands have it. -/
  | limited {n : Nat} : 0 < n → c.timeoutSeconds.same (.int n) = true →
      (∀ command ∈ commands, command.timeout = some (.number c.timeoutSeconds)) →
      Limits c commands

theorem IsSound.limits (h : c.IsSound) (hcommands : ∀ command ∈ commands,
    command.timeout = Machine.limitOf (.number c.timeoutSeconds)) : c.Limits commands := by
  obtain ⟨n, hn⟩ := h.exists_isValue
  rw [Machine.limitOf_of_isValue hn] at hcommands
  rcases Nat.eq_zero_or_pos n with rfl | hpos
  · exact .unlimited (hn.same_int_iff.2 rfl) hcommands
  · rw [if_neg hpos.ne'] at hcommands
    exact .limited hpos (hn.same_int_iff.2 rfl) hcommands

end Config

/-! ## Commands -/

namespace Shell

variable {sh : Shell} {α : Type} {readings : List Number} {plan : Plan} {ran : List Executed}
  {before commands : List Command} {outcome : Except Shell.Fault α}

theorem timeout_of_mem_started {p : Planned} :
    ∀ command ∈ sh.started p, command.timeout = Machine.limitOf sh.seconds := by
  intro command hcommand
  unfold started at hcommand
  split at hcommand
  case isTrue => cases hcommand
  case isFalse =>
    cases List.mem_singleton.1 hcommand
    rfl

/-- All commands of a course have the time limit of the shell. -/
theorem Course.timeout (h : Course sh readings before plan ran commands outcome) :
    ∀ command ∈ commands, command.timeout = Machine.limitOf sh.seconds := by
  induction h with
  | done | stuck => simp
  | ran _ _ _ ih =>
      intro command hcommand
      rcases List.mem_append.1 hcommand with hstarted | hrest
      · exact timeout_of_mem_started command hstarted
      · exact ih command hrest
  | failed | unanswered => exact timeout_of_mem_started
  | lost _ tried =>
      rcases tried with rfl | rfl
      · simp
      · exact timeout_of_mem_started

end Shell

namespace CommandLine

variable {s : Surroundings} {r : Request} {c : Config} {path : Option Path} {argv : List Text}

theorem bookMachine_timeout {sh : Shell} {m : Machine} (hm : m.commands = []) :
    ∀ command ∈ (bookMachine sh c m).commands,
      command.timeout = Machine.limitOf sh.seconds := by
  unfold bookMachine
  cases hopen : sh.openAt none m with
  | error fault => simp [hm]
  | ok session =>
      obtain ⟨ran, commands, hext, hcourse, -⟩ := sh.runBook_follows (c := c) session
      have hmachine : session.machine = m := by rw [Shell.eq_of_openAt hopen]
      have hcommands : ((sh.runBook (.ofConfig c)).run session).2.machine.commands = commands := by
        rw [hext.commands, hmachine, hm, List.nil_append]
      simp only [hcommands]
      exact hcourse.timeout

/-- All commands of a run have the time limit of the configuration that is loaded. -/
theorem run_timeout (hparse : Request.parse argv = .ok r) (hload : loaded s r = .ok (c, path)) :
    ∀ command ∈ (run s argv).commands,
      command.timeout = Machine.limitOf (.number c.timeoutSeconds) := by
  rw [run_of_parse hparse]
  cases hversion : pinnedVersion r.task.compatVersion with
  | error failure =>
      rw [follow_of_version hload hversion]
      simp [outcome, machine]
  | ok version =>
      rw [follow_of_loaded hload hversion, perform_commands]
      have hseconds : (c.withCompatVersion version).timeoutSeconds = c.timeoutSeconds := by
        cases version <;> rfl
      split
      · rw [← hseconds]
        exact bookMachine_timeout started_commands
      · simp

theorem commands_of_unparsed {stopped : Page × Stop} (h : Request.parse argv = .error stopped) :
    (run s argv).commands = [] := by
  rw [run, h]
  obtain ⟨page, _ | _ | _⟩ := stopped <;> rfl

/-- Accepted configurations are typed.

What is read from a mapping, and what is loaded, has the values that are given and else the
defaults.  Its texts have characters, and its time limit has the value of a natural number.  The
limit is an integer unless it is given as a binary number, which stays as it is.  A run that starts
commands has loaded a configuration, and it starts all of them with the limit of that, or without
one if that is 0. -/
theorem configuration_typed (entries : List (Value × Value)) (fs : FileSystem)
    (current : List Text) (root : Path) (explicit fromEnvironment : Option Text)
    (s : Surroundings) (argv : List Text) :
    (∀ c, Config.ofValue (.mapping entries) = .ok c →
      Config.IsTyped (fun k => Value.lookup k.name entries) c) ∧
    (∀ c source, Config.load fs current root explicit fromEnvironment = .ok (c, source) →
      Config.IsTyped (Config.givenFrom fs current source) c) ∧
    ((run s argv).commands ≠ [] →
      ∃ r c source, Request.parse argv = .ok r ∧ loaded s r = .ok (c, source) ∧
        Config.IsTyped (Config.givenFrom s.world.files s.world.current source) c ∧
        c.Limits (run s argv).commands) := by
  refine ⟨fun c h => Config.isTyped_of_ofEntries h, fun c source h => Config.load_typed h,
    fun hne => ?_⟩
  cases hparse : Request.parse argv with
  | error stopped => exact absurd (commands_of_unparsed hparse) hne
  | ok r =>
      obtain ⟨-, ⟨c, source, hload⟩, -⟩ := run_commands hparse hne
      exact ⟨r, c, source, rfl, hload, Config.load_typed hload,
        (Config.isSound_of_load hload).limits (run_timeout hparse hload)⟩

/-- A limit with a point in a mapping and in a run, and one without a point in a file. -/
theorem configuration_typed_of_seconds :
    let s := configuredSurroundings "timeout_seconds: 5.0\n".toUTF8.toList
    let t := configuredSurroundings "timeout_seconds: 45\n".toUTF8.toList
    let entries : List (Value × Value) := [(.text "timeout_seconds", .number (.float 5.0))]
    Config.IsTyped (fun k => Value.lookup k.name entries) { timeoutSeconds := .float 5.0 } ∧
    (∃ c source, loaded t plainRun = .ok (c, source) ∧ c.timeoutSeconds = .int 45 ∧
      Config.IsTyped (Config.givenFrom t.world.files t.world.current source) c) ∧
    (run s ["run"]).commands ≠ [] ∧
    ∃ c source, loaded s plainRun = .ok (c, source) ∧ c.timeoutSeconds = .float 5.0 ∧
      c.Limits (run s ["run"]).commands := by
  intro s t entries
  obtain ⟨hvalue, hload, hrun⟩ := configuration_typed entries t.world.files t.world.current
    (context t plainRun).root none t.environment.configPath s ["run"]
  have hentries : (Config.ofValue (.mapping entries)).toOption =
      some { timeoutSeconds := .float 5.0 } := by decide +kernel
  have hwhole : (loaded t plainRun).toOption.map (·.1.timeoutSeconds) = some (.int 45) := by
    decide +kernel
  have hpointed : (loaded s plainRun).toOption.map (·.1.timeoutSeconds) = some (.float 5.0) := by
    decide +kernel
  have hcommands : (run s ["run"]).commands ≠ [] := by decide +kernel
  refine ⟨?_, ?_, hcommands, ?_⟩
  · cases hc : Config.ofValue (.mapping entries) with
    | error refusal => simp [hc, Except.toOption] at hentries
    | ok c =>
        rw [hc] at hentries
        cases hentries
        exact hvalue _ hc
  · cases hc : loaded t plainRun with
    | error fault => simp [hc, Except.toOption] at hwhole
    | ok found =>
        rw [hc] at hwhole
        exact ⟨found.1, found.2, rfl, Option.some.inj hwhole, hload _ _ hc⟩
  · obtain ⟨r, c, source, hparse, hc, -, hlimits⟩ := hrun hcommands
    obtain rfl : plainRun = r := Except.ok.inj hparse
    rw [hc] at hpointed
    exact ⟨c, source, hc, Option.some.inj hpointed, hlimits⟩

end CommandLine
end Bindery
