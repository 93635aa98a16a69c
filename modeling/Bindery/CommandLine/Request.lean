import Bindery.CommandLine.Grammar
import Bindery.CommandLine.Page
import Bindery.Context

/-!
# Requests

A `Request` is what a command line asks for: options for the run, the name of a
configuration file, and a task.  `Request.parse` reads it.  The options of the
program stand in front of the name of the task and those of the task behind it.
Words that nothing takes are reported last, for the program as a whole.
-/

namespace Bindery.CommandLine

/-- How the version of the pinned dependency is given. -/
inductive VersionOption where
  /-- It is not given. -/
  | absent
  /-- It is given without a value. -/
  | bare
  /-- It is given with a value. -/
  | version (s : Text)
deriving DecidableEq, Repr

/-- A task with its options. -/
inductive Task where
  /-- Runs the pipeline. -/
  | run (dryRun : Bool) (compatVersion : VersionOption) (json : Bool)
  /-- Prints what the pipeline would run. -/
  | plan (compatVersion : VersionOption) (json : Bool)
  /-- Prints where the book of a ref would go. -/
  | uploadPath (ref : Option Text) (json : Bool)
  /-- Prints the configuration. -/
  | config (json : Bool)
deriving DecidableEq, Repr

/-- What a command line asks for. -/
structure Request where
  /-- The name of the configuration file. -/
  config : Option Text := none
  /-- The identifier of the run. -/
  runId : Option Text := none
  /-- The format of the log. -/
  format : Option Text := none
  /-- Events for debugging are logged. -/
  verbose : Bool := false
  /-- Only warnings and errors are logged. -/
  quiet : Bool := false
  /-- The task. -/
  task : Task
deriving DecidableEq, Repr

namespace Task

/-- The name of a task. -/
def name : Task → String
  | run _ _ _ => "run"
  | plan _ _ => "plan"
  | uploadPath _ _ => "upload-path"
  | config _ => "config"

/-- No command is run. -/
def isDry : Task → Bool
  | run dryRun _ _ => dryRun
  | plan _ _ => true
  | _ => false

/-- How a task is given the version of the pinned dependency. -/
def compatVersion : Task → VersionOption
  | run _ version _ => version
  | plan version _ => version
  | _ => .absent

end Task

/-- The options of the run. -/
def Request.options (r : Request) : RunOptions where
  runId := r.runId
  format := r.format
  verbose := r.verbose
  quiet := r.quiet
  dryRun := r.task.isDry

/-! ## The grammars -/

/-- The switch for help, which all pages have. -/
def helpSwitch : Switch := ⟨["-h", "--help"], .help⟩

/-- A switch with any value. -/
def valueSwitch (name : String) : Switch := ⟨[name], .value []⟩

/-- A switch without a value. -/
def flagSwitch (name : String) : Switch := ⟨[name], .flag⟩

/-- The grammar of a page. -/
def Page.grammar : Page → Grammar
  | main =>
      ⟨[helpSwitch, ⟨["--version"], .version⟩, valueSwitch "--config", valueSwitch "--run-id",
          ⟨["--format"], .value ["text", "json"]⟩, flagSwitch "--verbose", flagSwitch "--quiet"],
        ["--verbose", "--quiet"]⟩
  | run =>
      ⟨[helpSwitch, flagSwitch "--dry-run", valueSwitch "--compat-version",
        flagSwitch "--json"], []⟩
  | plan => ⟨[helpSwitch, valueSwitch "--compat-version", flagSwitch "--json"], []⟩
  | uploadPath => ⟨[helpSwitch, valueSwitch "--ref", flagSwitch "--json"], []⟩
  | config => ⟨[helpSwitch, flagSwitch "--json"], []⟩

/-- The pages of the tasks by name. -/
def Page.tasks : List (String × Page) :=
  [("run", .run), ("plan", .plan), ("upload-path", .uploadPath), ("config", .config)]

/-- The name of the task in messages. -/
def taskTitle : String := "cmd"

/-- How the version of the pinned dependency is given. -/
def Given.compatVersion (g : Given) : VersionOption :=
  match g.last? "--compat-version" with
  | none => .absent
  | some none => .bare
  | some (some version) => .version version

/-- The task of a page with what its options give. -/
def Page.task (g : Given) : Page → Task
  | plan => .plan g.compatVersion (g.has "--json")
  | uploadPath => .uploadPath (g.value? "--ref") (g.has "--json")
  | config => .config (g.has "--json")
  | _ => .run (g.has "--dry-run") g.compatVersion (g.has "--json")

namespace Request

/-- What a command line asks for, or the page that says why it is not followed. -/
def parse (argv : List Text) : Except (Page × Stop) Request := do
  let g ← (Page.main.grammar.read true argv).mapError fun stop => (.main, stop)
  let wrong {α : Type} (f : Fault) : Except (Page × Stop) α := .error (.main, .fault f)
  match g.command with
  | none => wrong (.noCommand taskTitle)
  | some (name, words) =>
      match (Page.tasks.find? fun task => name == task.1).map Prod.snd with
      | none => wrong (.notAChoice taskTitle name (Page.tasks.map Prod.fst))
      | some page => do
          let t ← (page.grammar.read false words).mapError fun stop => (page, stop)
          if (g.extra ++ t.extra).isEmpty then
            return { config := g.value? "--config", runId := g.value? "--run-id",
                     format := g.value? "--format", verbose := g.has "--verbose",
                     quiet := g.has "--quiet", task := page.task t }
          else wrong (.leftOver (g.extra ++ t.extra))

end Request

/-! ## Tests -/

/-- What words ask for. -/
def parseWords (words : List String) : Except (Page × Stop) Request :=
  Request.parse (words.map Text.ofString)

example : (parseWords ["--ver", "run"]).toOption = none := by decide +kernel
example : (parseWords ["--conf=c.yaml", "plan", "--compat", "-1.5", "--j"]).toOption =
    some { config := some "c.yaml", task := .plan (.version "-1.5") true } := by decide +kernel
example : (parseWords ["--quiet", "upload-path", "--ref="]).toOption =
    some { quiet := true, task := .uploadPath (some []) false } := by decide +kernel
example : (parseWords ["--config=--", "run", "--compat-version=--"]).toOption =
    some { task := .run false .bare false } := by decide +kernel

end Bindery.CommandLine
