import Bindery.Config.Key
import Bindery.Value.Text

/-!
# The configuration

A `Config` says which programs the pipeline calls, where the book is built and
where it goes.  All but the time limit are texts.  `Config.get` reads it by key,
and `Config.put` sets one key to a value of its kind.  `get_put` says that a
value that fits is read back.
-/

namespace Bindery

/-- The configuration of the pipeline. -/
structure Config where
  /-- The package manager. -/
  npm : Text := "npm"
  /-- The program that builds the book. -/
  gitbook : Text := "gitbook"
  /-- The program that uploads the book. -/
  gsutil : Text := "gsutil"
  /-- The package with the program that builds the book. -/
  toolchainPackage : Text := "gitbook-cli"
  /-- The directory of the sources. -/
  docsDir : Text := "docs"
  /-- The directory of the built book. -/
  outputDir : Text := "docs/_book"
  /-- The address of the bucket. -/
  bucket : Text := "gs://docs.itch.ovh"
  /-- The name of the book in the bucket. -/
  product : Text := "butler"
  /-- Who may read the uploaded book. -/
  acl : Text := "public-read"
  /-- The dependency that is pinned. -/
  compatPackage : Text := "graceful-fs"
  /-- The version it is pinned to. -/
  compatVersion : Text := "4.1.4"
  /-- Where the package manager keeps the modules of the program that builds the book. -/
  nestedModulesPath : Text := "lib/node_modules/gitbook-cli/node_modules/npm/node_modules"
  /-- How many seconds a command may take, where 0 means any time. -/
  timeoutSeconds : Number := .int 0
deriving DecidableEq, Repr

namespace Config

/-- The value of a key. -/
def get (c : Config) : Key → Value
  | .npm => .text c.npm
  | .gitbook => .text c.gitbook
  | .gsutil => .text c.gsutil
  | .toolchainPackage => .text c.toolchainPackage
  | .docsDir => .text c.docsDir
  | .outputDir => .text c.outputDir
  | .bucket => .text c.bucket
  | .product => .text c.product
  | .acl => .text c.acl
  | .compatPackage => .text c.compatPackage
  | .compatVersion => .text c.compatVersion
  | .nestedModulesPath => .text c.nestedModulesPath
  | .timeoutSeconds => .number c.timeoutSeconds

/-- A value is of the kind that a key takes. -/
def fits : Key → Value → Bool
  | .timeoutSeconds, .number _ => true
  | .timeoutSeconds, _ => false
  | _, .text _ => true
  | _, _ => false

/-- The configuration with a key set.  A value of another kind changes nothing. -/
def put (c : Config) : Key → Value → Config
  | .npm, .text s => { c with npm := s }
  | .gitbook, .text s => { c with gitbook := s }
  | .gsutil, .text s => { c with gsutil := s }
  | .toolchainPackage, .text s => { c with toolchainPackage := s }
  | .docsDir, .text s => { c with docsDir := s }
  | .outputDir, .text s => { c with outputDir := s }
  | .bucket, .text s => { c with bucket := s }
  | .product, .text s => { c with product := s }
  | .acl, .text s => { c with acl := s }
  | .compatPackage, .text s => { c with compatPackage := s }
  | .compatVersion, .text s => { c with compatVersion := s }
  | .nestedModulesPath, .text s => { c with nestedModulesPath := s }
  | .timeoutSeconds, .number n => { c with timeoutSeconds := n }
  | _, _ => c

/-- The pinned dependency as the package manager takes it. -/
def compatSpec (c : Config) : Text := c.compatPackage ++ "@" ++ c.compatVersion

/-- The configuration with another version of the pinned dependency, if one is given. -/
def withCompatVersion (c : Config) : Option Text → Config
  | some version => { c with compatVersion := version }
  | none => c

/-- A text or a number as JSON. -/
def valueJson : Value → Json
  | .text s => .text s
  | .number n => .number n
  | _ => .null

/-- The configuration as a JSON object. -/
def toJson (c : Config) : Json := .object (Key.all.map fun k => (k.name, valueJson (c.get k)))

/-! ## Reading back -/

theorem fits_get (c : Config) (k : Key) : fits k (c.get k) = true := by cases k <;> rfl

theorem get_put {k : Key} {v : Value} (h : fits k v = true) (c : Config) :
    (c.put k v).get k = v := by
  cases k <;> cases v <;> first | rfl | cases h

theorem get_put_of_ne {k l : Key} (h : l ≠ k) (c : Config) (v : Value) :
    (c.put k v).get l = c.get l := by
  cases k <;> cases v <;> first | rfl | (cases l <;> first | rfl | exact absurd rfl h)

end Config
end Bindery
