import Bindery.Environment
import Bindery.Path
import Bindery.Time

/-!
# The context of a run

A `Context` holds what does not change during a run: who runs it, where, how
its log is written, and whether commands are only logged.  `Context.make` takes
it from the options of the caller, the environment and the clock.  An option
wins over the environment, and an empty text counts as not given.
-/

namespace Bindery

/-- What does not change during a run. -/
structure Context where
  /-- The identifier of the run. -/
  runId : Text
  /-- The root of the repository. -/
  root : Path
  /-- The log is written as JSON. -/
  logJson : Bool
  /-- Events for debugging are logged. -/
  verbose : Bool
  /-- Only warnings and errors are logged. -/
  quiet : Bool
  /-- Commands are logged and not run. -/
  dryRun : Bool
  /-- The run is under continuous integration. -/
  ci : Bool
  /-- The ref that is built, if it is known. -/
  refName : Option Text
deriving DecidableEq, Repr

/-- What a caller may ask for. -/
structure RunOptions where
  /-- The identifier of the run. -/
  runId : Option Text := none
  /-- The format of the log. -/
  format : Option Text := none
  /-- Events for debugging are logged. -/
  verbose : Bool := false
  /-- Only warnings and errors are logged. -/
  quiet : Bool := false
  /-- Commands are logged and not run. -/
  dryRun : Bool := false
deriving DecidableEq, Repr, Inhabited

namespace Context

/-- A text, unless it is empty. -/
def given (s : Option Text) : Option Text := s.filter (· ≠ [])

/-- The ref whose book is published.  An empty one counts as not given. -/
def ref? (ctx : Context) : Option Text := given ctx.refName

/-- The context of a run that starts at a time in a repository. -/
def make (o : RunOptions) (e : Environment) (now : Timestamp) (root : Path) : Context where
  runId := ((given o.runId).orElse fun _ => given e.runId).getD ("book-" ++ now.compact : String)
  root := root
  logJson := (given o.format).getD (if e.isCi then "json" else "text" : String) == "json"
  verbose := o.verbose
  quiet := o.quiet
  dryRun := o.dryRun
  ci := e.isCi
  refName := e.refName

end Context
end Bindery
