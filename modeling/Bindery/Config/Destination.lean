import Bindery.Config.Settings
import Bindery.Text.Blank

/-!
# Publishing

The book of a ref goes to a directory of its own in the bucket: the bucket, the
product and the ref, each followed by a slash.  White space around the ref and
slashes at the end of the bucket do not count.  A blank ref has no directory.

The same holds for settings.  Their product may be any value and is written as
text.  The ref, the bucket and the directory of the book must be texts.
`destination_ofConfig` and `uploadCommand_ofConfig` say that the settings of a
configuration publish the book to the same place and by the same command.
-/

namespace Bindery

/-- The directory of a ref in a bucket.  The ref has no white space around it. -/
def publicDirectory (bucket product ref : Text) : Text :=
  Text.trimSlashes bucket ++ "/" ++ product ++ "/" ++ ref ++ "/"

/-- All files of a built book.  The program that uploads expands the asterisk. -/
def allFiles (directory : Text) : Text := Text.trimSlashes directory ++ "/*"

/-! ## Configurations -/

namespace Config

/-- Where the book of a ref goes, if the ref is not blank. -/
def destination? (c : Config) (ref : Text) : Option Text :=
  let ref := Text.trim ref
  if ref.isEmpty then none else some (publicDirectory c.bucket c.product ref)

/-- All files of the built book. -/
def source (c : Config) : Text := allFiles c.outputDir

/-- The command that uploads the book of a ref, if the ref is not blank. -/
def uploadCommand? (c : Config) (ref : Text) : Option (List Text) :=
  (c.destination? ref).map fun destination =>
    [c.gsutil, "-m", "cp", "-r", "-a", c.acl, c.source, destination]

/-- Why nothing is uploaded. -/
def skipMessage : String :=
  "Skipping uploading book, no CI_COMMIT_REF_NAME environment variable set"

end Config

/-! ## Settings -/

namespace Settings

/-- Where the book of a ref goes. -/
def destination (s : Settings) (ref : Value) : Except Fault Text := do
  let ref := Text.trim (← textFor "strip" ref)
  if ref.isEmpty then throw .blankRef
  else
    let bucket ← textFor "rstrip" (s.value .bucket)
    return publicDirectory bucket (s.value .product).plain ref

/-- The command that uploads the book of a ref. -/
def uploadCommand (s : Settings) (ref : Value) : Except Fault (List Value) := do
  let directory ← textFor "rstrip" (s.value .outputDir)
  let destination ← s.destination ref
  return [s.value .gsutil, .text "-m", .text "cp", .text "-r", .text "-a", s.value .acl,
    .text (allFiles directory), .text destination]

/-! ## Settings of a configuration -/

theorem destination_ofConfig (c : Config) (ref : Text) :
    (ofConfig c).destination (.text ref) =
      match c.destination? ref with
      | some destination => .ok destination
      | none => .error .blankRef := by
  change (if (Text.trim ref).isEmpty then Except.error Fault.blankRef
    else Except.ok (publicDirectory c.bucket c.product (Text.trim ref))) = _
  rw [Config.destination?]
  split <;> rfl

theorem uploadCommand_ofConfig (c : Config) (ref : Text) :
    (ofConfig c).uploadCommand (.text ref) =
      match c.uploadCommand? ref with
      | some argv => .ok (argv.map .text)
      | none => .error .blankRef := by
  change ((ofConfig c).destination (.text ref) >>= _) = _
  rw [destination_ofConfig, Config.uploadCommand?]
  cases c.destination? ref <;> rfl

end Settings

/-! ## Tests -/

example :
    (({ bucket := "gs://b//" } : Config).destination? " v1\n") = some "gs://b/butler/v1/" := by
  decide
example : (({} : Config).destination? " \t") = none := by decide
example : ({ outputDir := "/" } : Config).source = "/*" := by decide
example : (((Settings.ofConfig {}).set .product (.bool true)).destination (.text "v")).toOption =
    some "gs://docs.itch.ovh/True/v/" := by decide +kernel

end Bindery
