import Bindery.CommandLine.Run
import Bindery.FileSystem.Resolve
import Std.Time.DateTime

/-!
# The command line

`main` gathers what a run meets, calls `CommandLine.run`, and writes down what
it comes to.  Gathering is all that happens here: the arguments, four variables
of the environment, the directory, the time, and the file that the configuration
would come from.

The children are up to the caller of `CommandLine.run`, and this program has none:
each command is a process that the system does not permit, so a run that is not
dry reports its first command.  Other files than the configuration are not looked
at either, so a plan shows the directories as if none of them were a link.
-/

namespace Bindery.CommandLine

/-- The variables that matter. -/
def variableNames : List String := ["CI", "CI_COMMIT_REF_NAME", "BUTLER_BOOK_CONFIG", "RUN_ID"]

/-- The environment of the process. -/
def readEnvironment : IO Environment := do
  let values ← variableNames.mapM fun name => do return (← IO.getEnv name).map ((name, ·))
  return ⟨(values.filterMap id).map fun (name, value) => (name, (value : Text))⟩

/-- The time of the clock, in the universal zone. -/
def readClock : IO Timestamp := do
  let t := Std.Time.PlainDateTime.ofWallTime (.ofTimestamp (← Std.Time.Timestamp.now) .zero)
  return { year := t.year.toInt.toNat, month := t.month.val.toNat, day := t.day.val.toNat,
           hour := t.hour.val.toNat, minute := t.minute.val.toNat, second := t.second.val.toNat,
           micro := t.nanosecond.val.toNat / 1000, zone := some 0 }

/-- The file at a path, if there is one. -/
def readFile? (path : Path) : IO (Option Entry) := do
  try return some (.file (← IO.FS.readBinFile path.text.lossy).toList)
  catch
    | .permissionDenied .. => return some (.guarded (.opening .accessDenied))
    | _ => return none

/-- An entry at the end of a path, and the directories that the path leads through. -/
def entriesTo (path : Path) (entry : Entry) : List (List Text × Entry) :=
  let place (names : List Text) := (FileSystem.placeBelow [] names).reverse
  let passed := (List.range path.parts.length).map fun n => place (path.parts.take n)
  (place path.parts, entry) :: passed.map fun p => (p, .directory)

/-- A child that the system does not start. -/
def forbidden : Child := { isProcess := true, startFault := some .notPermitted }

/-- The path that the configuration would come from. -/
def configPath (root : Path) (e : Environment) (argv : List Text) : Path :=
  let explicit := (Request.parse argv).toOption.bind Request.config
  root / ((Config.nameFrom explicit e.configPath).map Path.parse).getD Config.usualPath

/-- All that a run in the current directory meets. -/
def gather (argv : List Text) : IO Surroundings := do
  let environment ← readEnvironment
  let root := Path.parse (← IO.currentDir).toString
  let path := configPath root environment argv
  let found := (← readFile? path).elim [] (entriesTo path)
  let files : FileSystem := { mount := [], entries := entriesTo root .directory ++ found }
  return { world := ⟨files, root.parts, fun _ _ => forbidden⟩, environment, now := ← readClock,
           devices := { output := .utf8 } }

end Bindery.CommandLine

/-- The program. -/
def main (argv : List String) : IO UInt32 := do
  let words := argv.map Bindery.Text.ofString
  let outcome := Bindery.CommandLine.run (← Bindery.CommandLine.gather words) words
  IO.print outcome.stdout.lossy
  IO.eprint outcome.stderr.lossy
  return UInt32.ofNat (outcome.exit % 256).toNat
