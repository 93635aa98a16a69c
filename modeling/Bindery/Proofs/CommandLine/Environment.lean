import Bindery.Proofs.CommandLine.Run

/-!
# What a run sees of the environment

A run asks four things of its environment: whether `CI` is set, the ref without the white space
around it, and the texts of two variables that the command line may overrule.  `Indistinct`
says that two environments give the same answers to a request.  Then the request comes to the
same in both (`run_of_indistinct`).
-/

namespace Bindery

/-- The text of a variable, which is empty if the variable is not set. -/
def Environment.textOf (e : Environment) (name : Text) : Text := (e.get? name).getD []

/-- An empty text counts as not given. -/
theorem Context.given_eq (o : Option Text) :
    given o = if o.getD [] = [] then none else some (o.getD []) := by
  cases o with
  | none => rfl
  | some text => by_cases h : text = [] <;> simp [given, h]

namespace CommandLine

/-- Two environments that a request cannot tell apart. -/
structure Indistinct (r : Request) (e e' : Environment) : Prop where
  /-- `CI` is empty in both or in neither. -/
  ci : e.textOf "CI" = [] ↔ e'.textOf "CI" = []
  /-- The refs differ at most in the white space around them. -/
  ref : Text.trim (e.textOf "CI_COMMIT_REF_NAME") = Text.trim (e'.textOf "CI_COMMIT_REF_NAME")
  /-- The identifier of the run is the same, unless the request gives one. -/
  runId : r.runId.getD [] = [] → e.textOf "RUN_ID" = e'.textOf "RUN_ID"
  /-- The configuration file is the same, unless the request names one. -/
  config : r.config.getD [] = [] →
    e.textOf "BUTLER_BOOK_CONFIG" = e'.textOf "BUTLER_BOOK_CONFIG"

/-- The surroundings with another environment. -/
def Surroundings.inEnvironment (s : Surroundings) (e : Environment) : Surroundings :=
  { s with environment := e }

/-- Of a text that is given and one in reserve, the one in reserve matters only if none is
given. -/
theorem orElse_given_congr {o : Option Text} {reserve reserve' : Option Text}
    (h : o.getD [] = [] → reserve.getD [] = reserve'.getD []) :
    ((Context.given o).orElse fun _ => Context.given reserve) =
      (Context.given o).orElse fun _ => Context.given reserve' := by
  rw [Context.given_eq o, Context.given_eq reserve, Context.given_eq reserve']
  split
  · next hnone => rw [h hnone]
  · rfl

section

variable {s : Surroundings} {r : Request} {e e' : Environment}

theorem Indistinct.isCi (h : Indistinct r e e') : e.isCi = e'.isCi := by
  have hci : (e.get? "CI").getD [] = [] ↔ (e'.get? "CI").getD [] = [] := h.ci
  rw [Environment.isCi, Environment.isCi, Bool.eq_iff_iff]
  simp [hci]

theorem Indistinct.refName (h : Indistinct r e e') : e.refName = e'.refName := by
  have href : Text.trim ((e.get? "CI_COMMIT_REF_NAME").getD []) =
      Text.trim ((e'.get? "CI_COMMIT_REF_NAME").getD []) := h.ref
  rw [Environment.refName, Environment.refName, href]

theorem Indistinct.context (h : Indistinct r e e') (s : Surroundings) :
    context (s.inEnvironment e) r = context (s.inEnvironment e') r := by
  have hrunId : ((Context.given r.options.runId).orElse fun _ => Context.given e.runId) =
      (Context.given r.options.runId).orElse fun _ => Context.given e'.runId :=
    orElse_given_congr h.runId
  change Context.make r.options e s.now (.ofNames s.world.current) =
    .make r.options e' s.now (.ofNames s.world.current)
  rw [Context.make, Context.make, hrunId, h.isCi, h.refName]

theorem Indistinct.nameFrom (h : Indistinct r e e') :
    Config.nameFrom r.config e.configPath = Config.nameFrom r.config e'.configPath :=
  orElse_given_congr h.config

theorem Indistinct.loaded (h : Indistinct r e e') (s : Surroundings) :
    loaded (s.inEnvironment e) r = loaded (s.inEnvironment e') r := by
  have hname : Config.nameFrom r.config (s.inEnvironment e).environment.configPath =
      Config.nameFrom r.config (s.inEnvironment e').environment.configPath := h.nameFrom
  rw [CommandLine.loaded, CommandLine.loaded, Config.load, Config.load, Config.path?, Config.path?,
    hname, h.context s]
  rfl

/-- A task that has started does not look at the environment again. -/
theorem perform_inEnvironment (s : Surroundings) (e : Environment) (ctx : Context) (c : Config)
    (path : Option Path) (task : Task) (m : Machine) :
    perform (s.inEnvironment e) ctx c path task m = perform s ctx c path task m := by
  cases task <;> rfl

theorem Indistinct.follow (h : Indistinct r e e') (s : Surroundings) :
    follow (s.inEnvironment e) (CommandLine.context (s.inEnvironment e) r) r =
      follow (s.inEnvironment e') (CommandLine.context (s.inEnvironment e') r) r := by
  have hmachine : machine (s.inEnvironment e) = machine (s.inEnvironment e') := rfl
  cases hload : CommandLine.loaded (s.inEnvironment e') r with
  | error fault => rw [follow_of_fault hload, follow_of_fault ((h.loaded s).trans hload), hmachine]
  | ok loaded =>
      obtain ⟨c, path⟩ := loaded
      have hload' := (h.loaded s).trans hload
      cases hversion : pinnedVersion r.task.compatVersion with
      | error failure =>
          rw [follow_of_version hload hversion, follow_of_version hload' hversion, hmachine]
      | ok version =>
          rw [follow_of_loaded hload hversion, follow_of_loaded hload' hversion,
            perform_inEnvironment, perform_inEnvironment, started, started, hmachine, h.context s]

/-- In two environments that a request cannot tell apart it comes to the same. -/
theorem run_of_indistinct {argv : List Text} (hparse : Request.parse argv = .ok r)
    (h : Indistinct r e e') (s : Surroundings) :
    run (s.inEnvironment e) argv = run (s.inEnvironment e') argv := by
  rw [run_of_parse hparse, run_of_parse hparse, h.follow s, h.context s]
  rfl

end

/-- The environments of two machines that build one ref. -/
theorem run_of_two_machines :
    let e : Environment :=
      ⟨[("CI", "true"), ("CI_COMMIT_REF_NAME", " v1\n"), ("RUN_ID", "17"), ("HOME", "/root")]⟩
    let e' : Environment :=
      ⟨[("CI", "0"), ("CI_COMMIT_REF_NAME", "v1"), ("RUN_ID", "4"), ("BUTLER_BOOK_CONFIG", "")]⟩
    let s := sampleSurroundings "/usr/local" fun _ => 0
    let argv : List Text := ["--run-id", "r1", "run", "--json"].map Text.ofString
    let r : Request := { runId := some "r1", task := .run false .absent true }
    Request.parse argv = .ok r ∧ Indistinct r e e' ∧
      run (s.inEnvironment e) argv = run (s.inEnvironment e') argv ∧
      (run (s.inEnvironment e) argv).exit = exitOk := by
  intro e e' s argv r
  have hparse : Request.parse argv = .ok r := rfl
  have h : Indistinct r e e' :=
    { ci := by decide
      ref := by decide
      runId := fun hnone => absurd hnone (by decide)
      config := fun _ => by decide }
  exact ⟨hparse, h, run_of_indistinct hparse h s, by decide +kernel⟩

end CommandLine
end Bindery
