import Bindery.Text.Blank

/-!
# The environment

Four variables of the environment matter.  Any text but the empty one in `CI`
means that the pipeline runs under continuous integration.  `CI_COMMIT_REF_NAME`
names the ref, with white space around it removed, and a blank one counts as
none.  The other two are used as they are.
-/

namespace Bindery

/-- The variables of a process with their values. -/
structure Environment where
  /-- The variables. -/
  bindings : List (Text × Text) := []
deriving DecidableEq, Repr, Inhabited

namespace Environment

/-- The value of a variable. -/
def get? (e : Environment) (name : Text) : Option Text := e.bindings.lookup name

/-- The pipeline runs under continuous integration. -/
def isCi (e : Environment) : Bool := !((e.get? "CI").getD []).isEmpty

/-- The name of the ref, if there is one. -/
def refName (e : Environment) : Option Text :=
  let ref := Text.trim ((e.get? "CI_COMMIT_REF_NAME").getD [])
  if ref.isEmpty then none else some ref

/-- The identifier of the run, if it is given. -/
def runId (e : Environment) : Option Text := e.get? "RUN_ID"

/-- The name of the configuration file, if it is given. -/
def configPath (e : Environment) : Option Text := e.get? "BUTLER_BOOK_CONFIG"

/-! ## Tests -/

example : isCi ⟨[("CI", "false")]⟩ = true := by decide
example : isCi ⟨[("CI", "")]⟩ = false := by decide
example : refName ⟨[("CI_COMMIT_REF_NAME", " v1\n")]⟩ = some "v1" := by decide
example : refName ⟨[("CI_COMMIT_REF_NAME", " \t")]⟩ = none := by decide

end Environment
end Bindery
