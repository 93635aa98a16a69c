import Bindery.CommandLine.Output
import Bindery.CommandLine.Request
import Bindery.Failure
import Bindery.Pipeline

/-!
# Runs of the program

`run` is the program: it takes a command line and gives an exit code, what goes
to the standard output and to the standard error, and the commands that were
started.

A wrong command line is answered by its page of the help.  Otherwise the
configuration is loaded, and then the task is done.  When all is done, the task
prints its rows to the standard output, one after the other, up to the first one
that the output has no code for.  The log goes to the standard error, with the
report of a failure behind it.
-/

namespace Bindery.CommandLine

/-- What the process of the program is connected to. -/
structure Devices where
  /-- The readings of the clock that measures commands. -/
  clock : List Number := []
  /-- The standard output. -/
  output : Output := .memory

/-- A clock, with a buffer for the output. -/
instance : Coe (List Number) Devices := ⟨fun clock => { clock }⟩

/-- All that a run of the program meets. -/
structure Surroundings where
  /-- What commands meet. -/
  world : World
  /-- The environment. -/
  environment : Environment
  /-- The time of the day. -/
  now : Timestamp
  /-- The clock that measures commands, and the standard output. -/
  devices : Devices := {}

/-- What a run of the program comes to. -/
structure Outcome where
  /-- The exit code. -/
  exit : Int
  /-- What goes to the standard output. -/
  stdout : Text
  /-- What goes to the standard error. -/
  stderr : Text
  /-- The commands that were started. -/
  commands : List Command
deriving Repr

/-! ## Failures -/

/-- A fault that the program does not expect. -/
def internal (message : Text) : Failure :=
  { origin := .script, message := "internal error: " ++ message, kind := "internal_error" }

/-- The failure for a fault of loading the configuration. -/
def ofLoadFault : Config.LoadFault → Failure
  | .config fault => fault.failure
  | fault => internal fault.message

/-- The failure for a fault of the shell. -/
def ofShellFault : Shell.Fault → Failure
  | .commandFailed failure => failure.failure
  | fault => internal fault.message

/-- A version of the pinned dependency is blank. -/
def blankVersion : Failure :=
  { origin := .script, message := "--compat-version must not be empty", code := exitUsage,
    kind := "usage_error" }

/-- A version of the pinned dependency is asked for and not given. -/
def bareVersion : Failure := internal (Value.lackMessage (Value.list []).kindName "strip")

/-- No ref is known. -/
def noRef : Failure :=
  { origin := .script, message := "no ref given; pass --ref or set CI_COMMIT_REF_NAME",
    code := exitUsage }

/-- The report of a failure. -/
def report (ctx : Context) (f : Failure) : Text :=
  let text : Text := if ctx.logJson then f.toJson.render .line else f.message
  text ++ "\n"

/-! ## Output -/

/-- The members that all results have. -/
def base (ctx : Context) : List (Text × Json) :=
  [("schema_version", .int 1), ("tool", .text Page.program), ("status", .text "ok"),
    ("run_id", .text ctx.runId), ("ci", .bool ctx.ci), ("ref_name", .textOrNull ctx.refName)]

/-- A result as a row of JSON. -/
def result (layout : Json.Layout) (ctx : Context) (members : List (Text × Json)) : Text :=
  (Json.object (base ctx ++ members)).render layout

/-- A command of a plan as JSON. -/
def plannedJson (e : Executed) : Json :=
  .object [("cwd", .text e.cwd.text), ("argv", .texts e.argv)]

/-- A command of a plan as a row of text. -/
def plannedRow (e : Executed) : Text :=
  "(" ++ e.cwd.text ++ ") $ " ++ Machine.commandLine e.argv

/-! ## Tasks -/

/-- Runs the pipeline in the root of the repository. -/
def runPipeline (s : Surroundings) (ctx : Context) (c : Config) (m : Machine) :
    Except Failure (List StageRecord × Session) × Machine :=
  let sh : Shell := ⟨s.world, ctx, .number c.timeoutSeconds⟩
  match sh.openAt none m with
  | .error fault => (.error (ofShellFault (.unresolved fault)), m)
  | .ok session =>
      match (sh.runBook (.ofConfig c)).run session with
      | (.ok records, session) => (.ok (records, session), session.machine)
      | (.error fault, session) => (.error (ofShellFault fault), session.machine)

/-- The rows that the pipeline prints when it is done. -/
def pipelineOutput (ctx : Context) (task : Task) (records : List StageRecord) (s : Session) :
    List Text :=
  match task with
  | .plan _ json =>
      if json then [result .line ctx [("commands", .list (s.history.map plannedJson))]]
      else s.history.map plannedRow
  | .run _ _ true =>
      [result .line ctx
        [("dry_run", .bool ctx.dryRun), ("steps", .list (records.map StageRecord.toJson))]]
  | _ => []

/-- The row that is printed about the place of the book of a ref. -/
def uploadPath (ctx : Context) (c : Config) (ref : Option Text) (json : Bool) :
    Except Failure Text :=
  let given := Text.trim (ref.getD [])
  match if given.isEmpty then ctx.ref? else some given with
  | none => .error noRef
  | some ref =>
      match c.destination? ref with
      | none => .error (internal Settings.Fault.blankRef.message)
      | some destination =>
          .ok (if json then
              result .line ctx [("ref", .text ref), ("destination", .text destination)]
            else destination)

/-- The path of the configuration file as JSON. -/
def sourceJson (path : Option Path) : Json := .textOrNull (path.map Path.text)

/-- The row that is printed about the configuration.  An integer that is too long cannot
be written. -/
def configOutput (ctx : Context) (c : Config) (path : Option Path) (json : Bool) :
    Except Failure Text :=
  if c.timeoutSeconds.isWritable then
    .ok (result (if json then .line else .block) ctx
      [("source", sourceJson path), ("config", c.toJson)])
  else .error (internal (Number.lengthMessage none))

/-- Does a task, and gives the rows to print. -/
def perform (s : Surroundings) (ctx : Context) (c : Config) (path : Option Path) (task : Task)
    (m : Machine) : Except Failure (List Text) × Machine :=
  match task with
  | .uploadPath ref json => ((uploadPath ctx c ref json).map fun row => [row], m)
  | .config json => ((configOutput ctx c path json).map fun row => [row], m)
  | task =>
      match runPipeline s ctx c m with
      | (.ok (records, session), m) => (.ok (pipelineOutput ctx task records session), m)
      | (.error failure, m) => (.error failure, m)

/-! ## Runs -/

/-- The event for the start of a task. -/
def startEvent (ctx : Context) (path : Option Path) (task : Task) : Event :=
  ⟨"info", "cli", "start",
    [("cmd", .text task.name), ("config", .text ((path.map Path.text).getD "defaults")),
      ("ci", .bool ctx.ci), ("dry_run", .bool ctx.dryRun)]⟩

/-- The version of the pinned dependency that is asked for, if it can be used. -/
def pinnedVersion : VersionOption → Except Failure (Option Text)
  | .absent => .ok none
  | .bare => .error bareVersion
  | .version s => if (Text.trim s).isEmpty then .error blankVersion else .ok (some s)

/-- Does what is asked for, and gives the rows to print. -/
def follow (s : Surroundings) (ctx : Context) (r : Request) :
    Except Failure (List Text) × Machine :=
  let m : Machine := { clock := s.devices.clock }
  match Config.load s.world.files s.world.current ctx.root r.config s.environment.configPath with
  | .error fault => (.error (ofLoadFault fault), m)
  | .ok (c, path) =>
      match pinnedVersion r.task.compatVersion with
      | .error failure => (.error failure, m)
      | .ok version =>
          perform s ctx (c.withCompatVersion version) path r.task
            (m.logged (startEvent ctx path r.task))

/-- The context of a request. -/
def context (s : Surroundings) (r : Request) : Context :=
  .make r.options s.environment s.now (.ofNames s.world.current)

/-- The answer to a command line that is not followed. -/
def answer (page : Page) : Stop → Outcome
  | .help => ⟨exitOk, page.help, [], []⟩
  | .version => ⟨exitOk, (Page.program ++ " " ++ Page.version ++ "\n" : String), [], []⟩
  | .fault fault =>
      let front := page.usage ++ page.title ++ ": error: "
      ⟨exitUsage, [], front ++ fault.message ++ "\n", []⟩

/-- What is printed when a request was followed, and the failure if there is one. -/
def deliver (out : Output) : Except Failure (List Text) → Text × Option Failure
  | .error failure => ([], some failure)
  | .ok rows =>
      let (text, fault) := out.print rows
      (text, fault.map fun words : String => internal words)

/-- What a run comes to that followed a request. -/
def outcome (s : Surroundings) (ctx : Context) (answer : Except Failure (List Text) × Machine) :
    Outcome :=
  let (stdout, failure?) := deliver s.devices.output answer.1
  { exit := (failure?.map Failure.code).getD exitOk
    stdout
    stderr := log s.now ctx answer.2.events ++ (failure?.map (report ctx)).getD []
    commands := answer.2.commands }

/-- Runs the program on a command line. -/
def run (s : Surroundings) (argv : List Text) : Outcome :=
  match Request.parse argv with
  | .error (page, stop) => answer page stop
  | .ok r => outcome s (context s r) (follow s (context s r) r)

end Bindery.CommandLine
