import Bindery.Proofs.CommandLine.Exit
import Bindery.Proofs.Config.Load

/-!
# Without a configuration

A configuration that is not loaded ends the run before a command is started.  The exit code is
that of a fault of the configuration, unless loading was given up for another reason
(`unloaded_exit`).  `Config.GivenUp` lists those reasons.
-/

namespace Bindery.CommandLine

variable {s : Surroundings} {r : Request} {argv : List Text} {fault : Config.LoadFault}

/-- The path at which the configuration of a request is looked for. -/
def candidate (s : Surroundings) (r : Request) : Path :=
  Config.candidate (context s r).root r.config s.environment.configPath

theorem loaded_givenUp_iff : (loaded s r = .error fault ∧ ∀ f, fault ≠ .config f) ↔
    Config.GivenUp s.world.files s.world.current (candidate s r) fault :=
  Config.load_givenUp_iff

theorem run_of_unloaded (hparse : Request.parse argv = .ok r) (hload : loaded s r = .error fault) :
    run s argv = outcome s (context s r) (.error (ofLoadFault fault), machine s) := by
  rw [run_of_parse hparse, follow_of_fault hload]

/-- A repository with something in the usual place of the configuration, or above it. -/
def configured (place : List Text) (entry : Entry) : Surroundings :=
  let sample := sampleSurroundings "/usr/local" fun _ => 0
  let files := sample.world.files.create ("srv" :: "book" :: place) entry
  { sample with world := { sample.world with files } }

/-- A repository whose configuration is the byte `0xFF`. -/
def unreadable : Surroundings := configured ["configs", "book.yaml"] (.file [0xFF])

/-- A repository whose configuration is in a directory that may not be searched. -/
def shut : Surroundings := configured ["configs"] .closed

/-- A repository whose configuration may not be opened. -/
def guarded : Surroundings :=
  configured ["configs", "book.yaml"] (.guarded (.opening .accessDenied))

end Bindery.CommandLine
