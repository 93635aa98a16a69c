import Bindery.Config.Destination
import Bindery.Shell.Basic
import Bindery.Summary

/-!
# The pipeline

The pipeline has five stages: print the versions of the tools, install the
program that builds the book, pin a dependency of it, build the book, and upload
it.  The dependency is pinned only under continuous integration, and the book is
uploaded only if its ref is known.  Each stage leaves a record of what it did, and
the record is a row of the summary.

A command that fails ends the pipeline, and so does a setting that cannot be used.
The settings of a configuration can all be used.
-/

namespace Bindery

/-! ## Stages -/

/-- A stage of the pipeline. -/
inductive Stage where
  /-- Prints the versions of the tools. -/
  | printVersions
  /-- Installs the program that builds the book. -/
  | installToolchain
  /-- Pins a dependency of that program. -/
  | patchCiDependency
  /-- Builds the book. -/
  | buildSite
  /-- Uploads the book. -/
  | publishSite
deriving DecidableEq, Repr

namespace Stage

/-- All stages in their order. -/
def all : List Stage :=
  [printVersions, installToolchain, patchCiDependency, buildSite, publishSite]

/-- The name of a stage. -/
def name : Stage → String
  | printVersions => "print-versions"
  | installToolchain => "install-toolchain"
  | patchCiDependency => "patch-ci-dependency"
  | buildSite => "build-site"
  | publishSite => "publish-site"

/-- The stage with a name. -/
def ofName? (s : Text) : Option Stage := all.find? fun stage => s == stage.name

end Stage

/-! ## Records -/

/-- What a stage did. -/
structure StageRecord where
  /-- The stage. -/
  stage : Stage
  /-- Why it was skipped, if it was. -/
  skipped : Option Text := none
  /-- What it worked on. -/
  details : List (Text × Text) := []
deriving DecidableEq, Repr

namespace StageRecord

/-- The status of a stage. -/
def status (r : StageRecord) : String := if r.skipped.isSome then "skipped" else "ok"

/-- The row of a record. -/
def row (r : StageRecord) : SummaryRow where
  name := .text r.stage.name
  status := .text r.status
  reason := .text (r.skipped.getD [])

/-- A record as a JSON object. -/
def toJson (r : StageRecord) : Json :=
  r.row.withDetails (r.details.map fun detail => (detail.1, .text detail.2))

end StageRecord

/-! ## What the stages do -/

/-- The directory with the modules of the program that builds the book, below a
directory. -/
def Settings.nestedModules (s : Settings) (base : Text) : Except Settings.Fault Path := do
  return Path.parse base / (← Settings.pathOf (s.value .nestedModulesPath))

/-- Why no dependency is pinned. -/
def notOnCi : Text := "not running under CI"

/-- The event for a book that is not uploaded. -/
def skipEvent : Event :=
  ⟨"warning", "publish", "skip-upload", [("message", .text Config.skipMessage)]⟩

/-- The event for a stage that is done. -/
def StageRecord.event (r : StageRecord) : Event :=
  ⟨"info", "book", r.stage.name, [("status", .text r.status)]⟩

namespace Shell

/-- Logs an event. -/
def log (e : Event) : Act Unit := modify fun s => s.logged e

/-- What a setting is used as, if it can be used. -/
def use {α : Type} : Except Settings.Fault α → Act α
  | .ok x => pure x
  | .error fault => throw (.unusable fault)

/-- Prints the versions of the tools. -/
def printVersions (sh : Shell) (c : Settings) : Act StageRecord := do
  let _ ← sh.run [c.value .npm, .text "version"]
  return { stage := .printVersions }

/-- Installs the program that builds the book. -/
def installToolchain (sh : Shell) (c : Settings) : Act StageRecord := do
  let package := c.value .toolchainPackage
  let _ ← sh.run [c.value .npm, .text "install", .text "-g", package]
  return { stage := .installToolchain, details := [("package", package.plain)] }

/-- The command that prints where the package manager installs. -/
def baseCommand (c : Settings) : List Value :=
  [c.value .npm, .text "config", .text "get", .text "prefix"]

/-- Pins a dependency in the modules of the program that builds the book. -/
def patchCiDependency (sh : Shell) (c : Settings) : Act StageRecord := do
  if !sh.context.ci then return { stage := .patchCiDependency, skipped := some notOnCi }
  else do
    let base ← sh.capture (baseCommand c)
    if base.isEmpty then
      throw (.commandFailed ⟨(baseCommand c).map Value.plain, (← get).cwd, 0, .noOutput⟩)
    let modules ← use (c.nestedModules base)
    let _ ← sh.inside modules fun _ =>
      sh.run [c.value .npm, .text "install", .text c.compatSpec, .text "--save"]
    return { stage := .patchCiDependency
             details := [("path", modules.text), ("package", c.compatSpec)] }

/-- Builds the book. -/
def buildSite (sh : Shell) (c : Settings) : Act StageRecord := do
  let docs ← use (Settings.pathOf (c.value .docsDir))
  let docs ← sh.inside docs fun docs => do
    let _ ← sh.run [c.value .npm, .text "install"]
    let _ ← sh.run [c.value .gitbook, .text "install"]
    let _ ← sh.run [c.value .gitbook, .text "build"]
    return docs
  return { stage := .buildSite, details := [("docs_dir", docs.text)] }

/-- Uploads the book. -/
def publishSite (sh : Shell) (c : Settings) : Act StageRecord := do
  match sh.context.ref? with
  | none => do
      log skipEvent
      return { stage := .publishSite, skipped := some (Config.skipMessage : Text) }
  | some ref =>
      let _ ← sh.run (← use (c.uploadCommand (.text ref)))
      return { stage := .publishSite
               details := [("destination", ← use (c.destination (.text ref)))] }

/-- Does a stage. -/
def perform (sh : Shell) (c : Settings) : Stage → Act StageRecord
  | .printVersions => sh.printVersions c
  | .installToolchain => sh.installToolchain c
  | .patchCiDependency => sh.patchCiDependency c
  | .buildSite => sh.buildSite c
  | .publishSite => sh.publishSite c

/-- Does stages one after the other. -/
def performAll (sh : Shell) (c : Settings) (stages : List Stage) : Act (List StageRecord) :=
  stages.mapM (sh.perform c)

/-- Does a stage and logs that it is done. -/
def performLogged (sh : Shell) (c : Settings) (stage : Stage) : Act StageRecord := do
  let r ← sh.perform c stage
  log r.event
  return r

/-- Runs the pipeline. -/
def runBook (sh : Shell) (c : Settings) : Act (List StageRecord) :=
  Stage.all.mapM (sh.performLogged c)

end Shell
end Bindery
