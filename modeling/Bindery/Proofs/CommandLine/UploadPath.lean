import Bindery.Proofs.CommandLine.DryRun
import Bindery.Proofs.CommandLine.Environment
import Bindery.Proofs.Pipeline.Publish

/-!
# The task `upload-path`

The task `upload-path` says beforehand where a run uploads the book.  Its answer depends on the
configuration and the ref only, and so it is right for every run of the pipeline with records
in the same setting, live or dry, whatever the children do (`uploadPath_foretells`).

A ref on the command line answers like the same ref in the environment.

There are three limits to this (`upload_not_foretold`).  The word `--ref=--` holds no ref, as the
grammar drops a value of two hyphens.  An output that has no code for the place does not show it.
And the upload raises what the system says if it does not take the command.
-/

namespace Bindery.CommandLine

variable {s s' : Surroundings} {r r' : Request} {c : Config} {path : Option Path}

/-! ## The answer of the task -/

theorem uploadPath_of_none {ctx : Context} (h : ctx.ref? = none) (c : Config) (json : Bool) :
    uploadPath ctx c none json = .error noRef := by
  have hblank : Text.trim (Option.getD none []) = [] := by decide
  simp only [uploadPath, hblank, List.isEmpty_nil, if_true, h]

theorem uploadPath_of_ref {ctx : Context} {ref place : Text} (h : ctx.ref? = some ref)
    (hplace : c.destination? ref = some place) :
    uploadPath ctx c none false = .ok place := by
  have hblank : Text.trim (Option.getD none []) = [] := by decide
  simp only [uploadPath, hblank, List.isEmpty_nil, if_true, h, hplace, Bool.false_eq_true, if_false]

/-- A ref that is given is trimmed. -/
theorem uploadPath_of_given {ref : Text} (h : Text.trim ref ≠ []) (ctx : Context) (c : Config) :
    uploadPath ctx c (some ref) false =
      .ok (publicDirectory c.bucket c.product (Text.trim ref)) := by
  have hplace : c.destination? (Text.trim ref) =
      some (publicDirectory c.bucket c.product (Text.trim ref)) := by
    rw [Config.destination?_of_ne_nil (by rwa [Text.trim_trim]), Text.trim_trim]
  simp [uploadPath, h, hplace]

/-- What the task comes to when the configuration is loaded. -/
theorem run_uploadPath {argv : List Text} {ref : Option Text} {json : Bool}
    (hparse : Request.parse argv = .ok r) (htask : r.task = .uploadPath ref json)
    (hload : loaded s r = .ok (c, path)) :
    run s argv = outcome s (context s r)
      ((uploadPath (context s r) c ref json).map fun row => [row], started s r path) := by
  have hversion : pinnedVersion r.task.compatVersion = .ok none := by
    rw [htask]
    rfl
  rw [run_of_parse hparse, follow_of_loaded hload hversion, htask]
  rfl

/-! ## Runs of the pipeline -/

/-- A request runs or plans the pipeline, and it comes to records and a session. -/
structure Completes (s : Surroundings) (r : Request) (records : List StageRecord)
    (session : Session) : Prop where
  isPipeline : r.task.isPipeline = true
  returns : ∃ c path version start, loaded s r = .ok (c, path) ∧
    pinnedVersion r.task.compatVersion = .ok version ∧
    (shellOf s r (c.withCompatVersion version)).Returns (c.withCompatVersion version) none
      (started s r path) start records session

/-- A run of the pipeline that exits well completes. -/
theorem completes_of_exit {argv : List Text} (hparse : Request.parse argv = .ok r)
    (htask : r.task.isPipeline = true) (hexit : (run s argv).exit = exitOk) :
    ∃ records session, Completes s r records session ∧
      (run s argv).stdout =
        Text.ofLines (pipelineOutput (context s r) r.task records session) ∧
      (run s argv).commands = session.machine.commands := by
  obtain ⟨c, path, version, records, start, session, hload, hversion, hbook, htakes⟩ :=
    run_of_exit_ok hparse htask hexit
  refine ⟨records, session, ⟨htask, c, path, version, start, hload, hversion, hbook⟩, ?_, ?_⟩
  · rw [run_of_returns htask hload hversion hbook hparse, outcome_of_takes htakes]
  · rw [run_of_returns htask hload hversion hbook hparse, outcome_commands]

/-- A run of the pipeline uploads the book to a place: the record names it, and it is the last word
of the last command. -/
structure UploadsTo (live : Bool) (records : List StageRecord) (session : Session) (place : Text) :
    Prop where
  record : ∀ record ∈ records, record.stage = .publishSite →
    record.details = [(("destination" : Text), place)]
  history : ∃ e, session.history.getLast? = some e ∧ e.argv.getLast? = some place
  commands : live = true → ∃ command, session.machine.commands.getLast? = some command ∧
    command.argv.getLast? = some (.text place)

/-- An outcome that is printed on an output says where a run of the pipeline uploads the book. -/
structure Foretells (out : Output) (o : Outcome) (live : Bool) (records : List StageRecord)
    (session : Session) : Prop where
  /-- The run has one record for each stage. -/
  stages : records.map StageRecord.stage = Stage.all
  /-- It is a usage error if the upload is skipped. -/
  usage : o.exit = 2 ↔
    ∃ record ∈ records, record.stage = .publishSite ∧ record.skipped.isSome = true
  /-- Otherwise the place is printed if the output has a code for it, and else nothing is. -/
  printed : o.exit ≠ 2 → ∃ place, UploadsTo live records session place ∧
    (out.fault? place = none → o.exit = 0 ∧ o.stdout = place ++ "\n") ∧
    (out.fault? place ≠ none → o.exit = 99 ∧ o.stdout = [])

/-- The version of the pinned dependency has no part in the place. -/
theorem destination?_withCompatVersion (c : Config) (version : Option Text) (ref : Text) :
    (c.withCompatVersion version).destination? ref = c.destination? ref := by
  cases version <;> rfl

theorem exists_publishSite_of_stages {records : List StageRecord}
    (h : records.map StageRecord.stage = Stage.all) :
    ∃ record ∈ records, record.stage = .publishSite := by
  have hmem : Stage.publishSite ∈ records.map StageRecord.stage := h ▸ by decide
  exact List.mem_map.1 hmem

/-- The task says where a run of the pipeline in the same setting uploads the book. -/
theorem Completes.foretold {records : List StageRecord} {session : Session} {argv' : List Text}
    (h : Completes s r records session) (hsame : SameSetting s s')
    (hparse : Request.parse argv' = .ok r') (hconfig : r'.config = r.config)
    (htask : r'.task = .uploadPath none false) :
    Foretells s'.devices.output (run s' argv') (!r.task.isDry) records session := by
  obtain ⟨c, path, version, start, hload, -, hbook⟩ := h.returns
  have hcompleted := Shell.runBook_completed _ hbook.ran
  have hrun := run_uploadPath hparse htask ((hsame.loaded hconfig).trans hload)
  have href : (context s' r').ref? =
      (shellOf s r (c.withCompatVersion version)).context.ref? := by
    rw [ref?_context, hsame.environment, ← ref?_context s r]
    rfl
  obtain ⟨last, hmem, hlast⟩ := exists_publishSite_of_stages hcompleted.stages
  cases hctx : (shellOf s r (c.withCompatVersion version)).context.ref? with
  | none =>
      rw [uploadPath_of_none (href.trans hctx)] at hrun
      have hskipped := hcompleted.skipped hctx hmem hlast
      have hexit : (run s' argv').exit = exitUsage := by
        rw [hrun]
        rfl
      refine ⟨hcompleted.stages, iff_of_true hexit ⟨last, hmem, hlast, by rw [hskipped]; rfl⟩, ?_⟩
      exact fun hne => absurd hexit hne
  | some ref =>
      obtain ⟨place, hplace, huploaded⟩ := hcompleted.uploaded hctx
      rw [destination?_withCompatVersion] at hplace
      rw [uploadPath_of_ref (href.trans hctx) hplace] at hrun
      have hprinted : (s'.devices.output.fault? place = none →
            (run s' argv').exit = exitOk ∧ (run s' argv').stdout = place ++ "\n") ∧
          (s'.devices.output.fault? place ≠ none →
            (run s' argv').exit = exitInternal ∧ (run s' argv').stdout = []) :=
        hrun ▸ outcome_of_row s' _ place _
      have hexit : (run s' argv').exit ≠ exitUsage := by
        intro husage
        cases hfault : s'.devices.output.fault? place with
        | none => cases husage.symm.trans (hprinted.1 hfault).1
        | some fault => cases husage.symm.trans (hprinted.2 (by rw [hfault]; simp)).1
      refine ⟨hcompleted.stages, iff_of_false hexit ?_, fun _ => ⟨place, ?_, hprinted⟩⟩
      · rintro ⟨record, hrecord, hstage, hskipped⟩
        rw [huploaded.record record hrecord hstage] at hskipped
        cases hskipped
      · refine ⟨fun record hrecord hstage => ?_, huploaded.history, fun hlive => ?_⟩
        · rw [huploaded.record record hrecord hstage]
        · have live : r.task.isDry = false := by simpa using hlive
          exact huploaded.commands live

/-! ## Refs on the command line -/

/-- The request for the place of a ref, with the options of another request in front. -/
def placeOf (r : Request) (ref : Option Text) : Request :=
  { r with task := .uploadPath ref false }

/-- An environment in which a ref is set, and else nothing is different. -/
structure SetsRef (e : Environment) (ref : Text) (e' : Environment) : Prop where
  ref : e'.get? "CI_COMMIT_REF_NAME" = some ref
  others : ∀ name : Text, name ≠ "CI_COMMIT_REF_NAME" → e'.get? name = e.get? name

theorem outcome_with_ref (s : Surroundings) (e : Environment) (ctx : Context)
    (refName : Option Text) (followed : Except Failure (List Text) × Machine) :
    outcome (s.inEnvironment e) { ctx with refName } followed = outcome s ctx followed := rfl

namespace SetsRef

variable {e e' : Environment} {ref : Text} {argv argv' : List Text}

theorem loaded (h : SetsRef e ref e') (s : Surroundings) (r : Request) :
    loaded (s.inEnvironment e') (placeOf r none) =
      loaded (s.inEnvironment e) (placeOf r (some ref)) := by
  have hpath : (s.inEnvironment e').environment.configPath =
      (s.inEnvironment e).environment.configPath := h.others _ (by decide)
  rw [CommandLine.loaded, CommandLine.loaded, hpath]
  rfl

/-- The contexts differ in the ref only. -/
theorem context (h : SetsRef e ref e') (s : Surroundings) (r : Request) :
    context (s.inEnvironment e') (placeOf r none) =
      { context (s.inEnvironment e) (placeOf r (some ref)) with refName := e'.refName } := by
  have hci : e'.isCi = e.isCi := by rw [Environment.isCi, Environment.isCi, h.others _ (by decide)]
  have hrunId : e'.runId = e.runId := h.others _ (by decide)
  have hmake (o : RunOptions) (now : Timestamp) (root : Path) : Context.make o e' now root =
      { Context.make o e now root with refName := e'.refName } := by
    rw [Context.make, Context.make, hci, hrunId]
  exact hmake ..

theorem started (h : SetsRef e ref e') (s : Surroundings) (r : Request) (path : Option Path) :
    started (s.inEnvironment e') (placeOf r none) path =
      started (s.inEnvironment e) (placeOf r (some ref)) path := by
  rw [CommandLine.started, CommandLine.started, h.context s r]
  rfl

theorem ref?_context (h : SetsRef e ref e') (hne : Text.trim ref ≠ []) (s : Surroundings)
    (r : Request) : (CommandLine.context (s.inEnvironment e') r).ref? = some (Text.trim ref) := by
  have hget : ((s.inEnvironment e').environment.get? "CI_COMMIT_REF_NAME").getD [] = ref := by
    rw [show (s.inEnvironment e').environment.get? "CI_COMMIT_REF_NAME" = some ref from h.ref]
    rfl
  rw [CommandLine.ref?_context, hget]
  exact if_neg hne

/-- A ref on the command line answers like the same ref in the environment. -/
theorem run_placeOf (h : SetsRef e ref e') (hne : Text.trim ref ≠ [])
    (hparse : Request.parse argv = .ok (placeOf r (some ref)))
    (hparse' : Request.parse argv' = .ok (placeOf r none)) (s : Surroundings) :
    run (s.inEnvironment e) argv = run (s.inEnvironment e') argv' := by
  cases hload : CommandLine.loaded (s.inEnvironment e) (placeOf r (some ref)) with
  | error fault =>
      rw [run_of_parse hparse, run_of_parse hparse', follow_of_fault hload,
        follow_of_fault ((h.loaded s r).trans hload), h.context s r]
      exact (outcome_with_ref ..).symm
  | ok found =>
      obtain ⟨c, path⟩ := found
      have hplace : c.destination? (Text.trim ref) =
          some (publicDirectory c.bucket c.product (Text.trim ref)) := by
        rw [Config.destination?_of_ne_nil (by rwa [Text.trim_trim]), Text.trim_trim]
      rw [run_uploadPath hparse rfl hload, run_uploadPath hparse' rfl ((h.loaded s r).trans hload),
        uploadPath_of_given hne, uploadPath_of_ref (h.ref?_context hne s _) hplace, h.context s r,
        h.started s r]
      exact (outcome_with_ref ..).symm

end SetsRef

/-! ## The option for the ref -/

section

variable {ref : Text}

/-- The word that gives a ref, with the ref behind an equality sign. -/
def refWord (ref : Text) : Text := "--ref=" ++ ref

/-- The name of a task and one word behind it are left to the task. -/
theorem Grammar.read_command {g : Grammar} {name word : Text} {role : Role}
    (hname : g.role name = .ok .argument) (hname' : name ≠ separator) (hword : word ≠ separator)
    (hrole : g.role word = .ok role) :
    g.read true [name, word] = .ok { command := some (name, [word]) } := by
  have hwords : g.words [name, word] = .ok [⟨name, .argument⟩, ⟨word, role⟩] := by
    simp only [Grammar.words, hname, hrole, hname', hword, if_false]
    rfl
  rw [Grammar.read, hwords]
  rfl

/-- A word with a value behind an equality sign gives the value to its switch. -/
theorem Grammar.read_value {g : Grammar} {name : String} {word value : Text}
    (hexclusive : g.exclusive = []) (hword : word ≠ separator)
    (hrole : g.role word = .ok (.option (valueSwitch name) name (some value))) :
    g.read false [word] = .ok { switches := [(valueSwitch name, heldValue value)] } := by
  have hwords : g.words [word] = .ok [⟨word, .option (valueSwitch name) name (some value)⟩] := by
    simp only [Grammar.words, hrole, hword, if_false]
    rfl
  have hexpand : g.expand (valueSwitch name) name value =
      .ok ([(valueSwitch name, heldValue value)], none) := by
    cases value <;> rfl
  have happly : ∀ held, g.apply {} (valueSwitch name) held =
      .ok { switches := [(valueSwitch name, held)] } := by
    have hnone : g.switches.find? (fun _ => false) = none := by simp
    intro held
    cases held <;> simp [Grammar.apply, hexclusive, valueSwitch, hnone] <;> rfl
  rw [Grammar.read, hwords]
  show g.takeWords false none {} _ = _
  have hok {α β : Type} (a : α) (f : α → Except Stop β) : (Except.ok a >>= f) = f a := rfl
  simp only [Grammar.takeWords, Grammar.takeWord, hexpand, hok, List.foldlM_cons, happly,
    Bool.false_and, Bool.false_eq_true, if_false]
  rfl

/-- For the program as a whole the word is no option of its own. -/
theorem exists_role_refWord (ref : Text) :
    ∃ role, Page.main.grammar.role (refWord ref) = .ok role := by
  have hrole : Page.main.grammar.role (refWord ref) =
      if isNumber (withoutNewline ((refWord ref).drop 1)) || (refWord ref).contains ' ' then
        .ok .argument
      else .ok .unknown := rfl
  rw [hrole]
  split
  · exact ⟨_, rfl⟩
  · exact ⟨_, rfl⟩

/-- The word is left to the task. -/
theorem read_main_refWord (ref : Text) :
    Page.main.grammar.read true ["upload-path", refWord ref] =
      .ok { command := some ("upload-path", [refWord ref]) } := by
  obtain ⟨role, hrole⟩ := exists_role_refWord ref
  exact Grammar.read_command rfl (by decide) (by rintro ⟨⟩) hrole

/-- The task takes the word for its option, with what is behind the equality sign. -/
theorem read_uploadPath_refWord (ref : Text) :
    Page.uploadPath.grammar.read false [refWord ref] =
      .ok { switches := [(valueSwitch "--ref", Grammar.heldValue ref)] } :=
  Grammar.read_value rfl (by rintro ⟨⟩) rfl

/-- What a command line asks for whose words are all taken. -/
theorem parse_of_read {argv words : List Text} {name : Text} {name' : String} {page : Page}
    {g t : Given} (hmain : Page.main.grammar.read true argv = .ok g)
    (hcommand : g.command = some (name, words))
    (hpage : Page.tasks.find? (fun task => name == task.1) = some (name', page))
    (htask : page.grammar.read false words = .ok t) (hextra : g.extra ++ t.extra = []) :
    Request.parse argv =
      .ok { config := g.value? "--config", runId := g.value? "--run-id",
            format := g.value? "--format", verbose := g.has "--verbose",
            quiet := g.has "--quiet", task := page.task t } := by
  have hok {α β : Type} {stop : Stop → Page × Stop} (a : α) (f : α → Except (Page × Stop) β) :
      ((Except.ok a).mapError stop >>= f) = f a := rfl
  simp only [Request.parse, hmain, hok, hcommand, hpage, Option.map_some, htask, hextra,
    List.isEmpty_nil, if_true]
  rfl

/-- The word gives its ref to the task, unless the ref is two hyphens. -/
theorem parse_refWord (hvalue : ref ≠ separator) :
    Request.parse ["upload-path", refWord ref] = .ok (placeOf plainRun (some ref)) := by
  have hheld : Grammar.heldValue ref = some ref := if_neg hvalue
  rw [parse_of_read (read_main_refWord ref) rfl rfl (read_uploadPath_refWord ref) rfl, hheld]
  rfl

theorem parse_uploadPath :
    Request.parse ["upload-path"] = .ok (placeOf plainRun none) := by decide +kernel

end

/-! ## The task and the pipeline -/

/-- The task `upload-path` foretells the upload.

A run or a plan of the pipeline that exits well has records, and for every run with records
the task says in the same setting where the book goes: it is a usage error if the upload was
skipped, and otherwise it prints the place that the record and the last command name, or fails if
the output has no code for it.  A ref on the command line answers like the same ref in the
environment, and so does every ref in a word `--ref=`, if it is not blank and no pair of hyphens.
In a context that is made for a run the stage that uploads is never given a blank ref.  Its only
faults are that its command failed, and that the command has no result, which is what running it
says. -/
theorem uploadPath_foretells :
    (∀ (s : Surroundings) (r : Request) (argv : List Text), Request.parse argv = .ok r →
        r.task.isPipeline = true → (run s argv).exit = 0 →
        ∃ records session, Completes s r records session ∧
          (run s argv).stdout =
            Text.ofLines (pipelineOutput (context s r) r.task records session) ∧
          (run s argv).commands = session.machine.commands) ∧
    (∀ (s s' : Surroundings) (r r' : Request) (argv' : List Text) (records : List StageRecord)
        (session : Session), Completes s r records session → SameSetting s s' →
        Request.parse argv' = .ok r' → r'.config = r.config → r'.task = .uploadPath none false →
        Foretells s'.devices.output (run s' argv') (!r.task.isDry) records session) ∧
    (∀ (s : Surroundings) (e e' : Environment) (ref : Text) (r : Request) (argv argv' : List Text),
        SetsRef e ref e' → Text.trim ref ≠ [] → Request.parse argv = .ok (placeOf r (some ref)) →
        Request.parse argv' = .ok (placeOf r none) →
        run (s.inEnvironment e) argv = run (s.inEnvironment e') argv') ∧
    (∀ (s : Surroundings) (e e' : Environment) (ref : Text), SetsRef e ref e' →
        Text.trim ref ≠ [] → ref ≠ separator →
        run (s.inEnvironment e) ["upload-path", refWord ref] =
          run (s.inEnvironment e') ["upload-path"]) ∧
    (∀ (sh : Shell) (c : Settings) (session : Session) (o : RunOptions) (e : Environment)
        (now : Timestamp) (root : Path), sh.context = .make o e now root →
        ((sh.publishSite c).run session).1 ≠ .error (.unusable .blankRef)) ∧
    (∀ (sh : Shell) (c : Config) (session : Session) (o : RunOptions) (e : Environment)
        (now : Timestamp) (root : Path) (fault : Shell.Fault), sh.context = .make o e now root →
        ((sh.publishSite (.ofConfig c)).run session).1 = .error fault →
        sh.context.dryRun = false ∧ Shell.UploadFault sh c session fault) := by
  refine ⟨?_, ?_, ?_, ?_, ?_, ?_⟩
  · intro s r argv hparse htask hexit
    exact completes_of_exit hparse htask hexit
  · intro s s' r r' argv' records session h hsame hparse hconfig htask
    exact h.foretold hsame hparse hconfig htask
  · intro s e e' ref r argv argv' h hne hparse hparse'
    exact h.run_placeOf hne hparse hparse' s
  · intro s e e' ref h hne hvalue
    exact h.run_placeOf hne (parse_refWord hvalue) parse_uploadPath s
  · intro sh c session o e now root hcontext
    exact Shell.publishSite_ne_blankRef hcontext c session
  · intro sh c session o e now root fault hcontext h
    exact Shell.uploadFault_of_publishSite hcontext h

/-- A repository where a program fails. -/
def failingSurroundings (program : Text) : Surroundings :=
  sampleSurroundings "/usr/local" fun argv => if argv.head? = some program then 1 else 0

/-- A run whose upload is foretold in a repository where nothing can be started, the ref of a
merge request, and an upload that fails. -/
theorem uploadPath_foretells_of_samples :
    let s := failingSurroundings "none"
    let s' := sampleSurroundings "/usr/local" fun _ => 127
    let e : Environment := ⟨[("CI", "true"), ("CI_COMMIT_REF_NAME", "v1")]⟩
    let e' : Environment := ⟨[("CI_COMMIT_REF_NAME", " mr/7"), ("CI", "true")]⟩
    let sh := shellOf (failingSurroundings "gsutil") plainRun {}
    let session : Session := { cwd := .ofNames ["srv", "book"] }
    (∃ records session, Completes s plainRun records session ∧
      Foretells .memory (run s' ["upload-path"]) true records session ∧
      (run s ["run"]).commands ≠ []) ∧
    run (s.inEnvironment e) ["upload-path", refWord " mr/7"] =
      run (s.inEnvironment e') ["upload-path"] ∧
    run (s.inEnvironment e) ["--quiet", "upload-path", refWord " mr/7"] =
      run (s.inEnvironment e') ["--quiet", "upload-path"] ∧
    ((sh.publishSite (.ofConfig {})).run session).1 ≠ .error (.unusable .blankRef) ∧
    ∃ fault, ((sh.publishSite (.ofConfig {})).run session).1 = .error fault ∧
      Shell.UploadFault sh {} session fault := by
  intro s s' e e' sh session
  have hset : SetsRef e " mr/7" e' := by
    refine ⟨by decide, fun name hname => ?_⟩
    have hne : (name == ("CI_COMMIT_REF_NAME" : Text)) = false := by simpa using hname
    simp only [Environment.get?, e, e', List.lookup_cons, List.lookup_nil, hne]
  have hne : Text.trim (" mr/7" : Text) ≠ [] := by decide
  have hparse : Request.parse ["run"] = .ok plainRun := rfl
  have hquiet : Request.parse ["--quiet", "upload-path"] =
      .ok (placeOf { plainRun with quiet := true } none) := by decide +kernel
  have hquietRef : Request.parse ["--quiet", "upload-path", refWord " mr/7"] =
      .ok (placeOf { plainRun with quiet := true } (some " mr/7")) := by decide +kernel
  obtain ⟨records, session₁, hcompletes, -, -⟩ :=
    uploadPath_foretells.1 s plainRun _ hparse rfl (by decide +kernel)
  have hcontext : sh.context = .make plainRun.options s.environment s.now _ := rfl
  refine ⟨⟨records, session₁, hcompletes, ?_, by decide +kernel⟩, ?_, ?_, ?_, ?_⟩
  · exact uploadPath_foretells.2.1 s s' plainRun _ _ records session₁ hcompletes ⟨rfl, rfl, rfl⟩
      parse_uploadPath rfl rfl
  · exact uploadPath_foretells.2.2.2.1 s e e' _ hset hne (by decide)
  · exact uploadPath_foretells.2.2.1 s e e' _ _ _ _ hset hne hquietRef hquiet
  · exact uploadPath_foretells.2.2.2.2.1 sh _ session _ _ _ _ hcontext
  · have hfails : ((sh.publishSite (.ofConfig {})).run session).1.toOption = none := by
      decide +kernel
    cases hran : ((sh.publishSite (.ofConfig {})).run session).1 with
    | ok record =>
        rw [hran] at hfails
        cases hfails
    | error fault =>
        exact ⟨fault, rfl, (uploadPath_foretells.2.2.2.2.2 sh {} session _ _ _ _ fault hcontext
          hran).2⟩

/-- The ref of two hyphens has a place, but the word that holds it gives no ref.  A run uploads to
a place that a terminal has no code for, and the task does not show it there.  And a system takes
no word with U+0000, so that the upload does not fail as a command then. -/
theorem upload_not_foretold :
    let s := sampleSurroundings "/usr/local" fun _ => 0
    let sh := shellOf (onSystem s) plainRun {}
    (Text.trim separator ≠ [] ∧ SetsRef ⟨[]⟩ separator ⟨[("CI_COMMIT_REF_NAME", separator)]⟩ ∧
      (run (s.inEnvironment ⟨[]⟩) ["upload-path", refWord separator]).exit = 2 ∧
      (run (s.inEnvironment ⟨[]⟩) ["upload-path", refWord separator]).stdout = [] ∧
      (run (s.inEnvironment ⟨[("CI_COMMIT_REF_NAME", separator)]⟩) ["upload-path"]).stdout =
        "gs://docs.itch.ovh/butler/--/\n") ∧
    ((run unprintable ["run"]).exit = 0 ∧
      (run unprintable ["upload-path"]).exit = 99 ∧
      (run unprintable ["upload-path"]).stdout = []) ∧
    ((sh.publishSite (.ofConfig { acl := ['\x00'] })).run { cwd := .ofNames ["srv", "book"] }).1 =
      .error (.noResult (.refused .nul)) := by
  refine ⟨⟨by decide, ⟨by decide, fun name hname => ?_⟩, ?_, ?_, ?_⟩, ⟨?_, ?_, ?_⟩, ?_⟩
  · have hne : (name == ("CI_COMMIT_REF_NAME" : Text)) = false := by simpa using hname
    simp only [Environment.get?, List.lookup_cons, List.lookup_nil, hne]
  · decide +kernel
  · decide +kernel
  · decide +kernel
  · decide +kernel
  · decide +kernel
  · decide +kernel
  · rfl

end Bindery.CommandLine
