import Bindery.Config.Schema
import Bindery.FileSystem.Basic
import Bindery.Yaml.Document

/-!
# The configuration file

The configuration comes from a YAML file.  The file may be named by the caller
or else by a variable of the environment, and then it has to exist.  If neither
names one, a file in the usual place is read if there is one, and without any
file all keys have their defaults.

`Config.load` gives the configuration with the path of its file.  Most of what
can go wrong is a `Config.Fault`, a fault of the configuration, and so is a file
that cannot be opened or read.  A path that cannot be looked at, a file that is
no text, a scalar without a value, and a report that cannot be written are not:
they are the other cases of `Config.LoadFault`.
-/

namespace Bindery
namespace Config

/-! ## Causes -/

/-- A fault of the configuration. -/
inductive Fault where
  /-- The file that is named does not exist. -/
  | notFound (path : Path)
  /-- The bytes of the file cannot be had. -/
  | unreadable (path : Path) (fault : FileFault)
  /-- The file is not well-formed. -/
  | malformed (path : Path) (fault : Yaml.Fault)
  /-- The file holds a character that no text may hold. -/
  | unacceptable (path : Path) (found : Char) (index : Nat)
  /-- The file holds no mapping. -/
  | notMapping (path : Path)
  /-- A rule is broken. -/
  | invalid (source : Text) (violation : Violation)
deriving Repr

/-- A path that cannot be looked at. -/
structure Unseen where
  /-- What is in the way. -/
  fault : FileSystem.WalkFault
  /-- The path. -/
  path : Path
deriving DecidableEq, Repr

/-- Why a configuration could not be loaded. -/
inductive LoadFault where
  /-- The configuration is at fault. -/
  | config (fault : Fault)
  /-- The path of the file cannot be looked at. -/
  | unseen (place : Unseen)
  /-- The file is no text. -/
  | undecodable (fault : Text.Utf8.Fault)
  /-- A scalar has no value. -/
  | badValue (value : Yaml.BadValue)
  /-- The report about a value cannot be written. -/
  | unwritable
deriving Repr

@[deprecated LoadFault.unseen (since := "2026-01-12"), match_pattern, inherit_doc LoadFault.unseen]
abbrev LoadFault.nameTooLong (place : Unseen) : LoadFault := .unseen place

/-- The words for a fault of the configuration. -/
def Fault.message : Fault → Text
  | .notFound path => "config file not found: " ++ path.text
  | .unreadable path fault => path.text ++ ": unable to read config: " ++ fault.message path
  | .malformed path fault =>
      path.text ++ ": unable to read config: " ++ fault.message path.text
  | .unacceptable path found index =>
      path.text ++ ": unable to read config: " ++
        Yaml.unacceptableMessage path.text found index
  | .notMapping path => path.text ++ ": root must be mapping"
  | .invalid source violation => source ++ ": " ++ violation.message

/-- The words for a fault of loading. -/
def LoadFault.message : LoadFault → Text
  | .config fault => fault.message
  | .unseen place => place.fault.toSystem.message (some (Text.quoted place.path.text))
  | .undecodable fault => fault.message
  | .badValue value => value.message
  | .unwritable => Number.lengthMessage none

/-! ## The path -/

/-- The usual place of the file. -/
def usualPath : Path := .parse "configs/book.yaml"

/-- The path is one of a file, for a process in a directory. -/
def checkFile (fs : FileSystem) (current : List Text) (path : Path) : Except LoadFault Bool :=
  (fs.isFile current path).mapError fun fault => .unseen ⟨fault, path⟩

/-- The name of the file: the one given, or else the one in the environment.  An
empty name counts as none. -/
def nameFrom (explicit fromEnvironment : Option Text) : Option Text :=
  (explicit.filter (· ≠ [])).orElse fun _ => fromEnvironment.filter (· ≠ [])

/-- The path of the file, if there is one.  Its name is taken from the root of the
repository. -/
def path? (fs : FileSystem) (current : List Text) (root : Path)
    (explicit fromEnvironment : Option Text) : Except LoadFault (Option Path) := do
  match nameFrom explicit fromEnvironment with
  | some name => do
      let path := root / Path.parse name
      if ← checkFile fs current path then return some path
      else throw (.config (.notFound path))
  | none => do
      let path := root / usualPath
      return if ← checkFile fs current path then some path else none

/-! ## Loading -/

/-- The fault of a text of a file. -/
def ofYamlError (path : Path) : Yaml.Error ⊕ Yaml.BlockFault → LoadFault
  | .inl (.fault fault) => .config (.malformed path fault)
  | .inl (.badValue value) => .badValue value
  | .inr (.unacceptable found index) => .config (.unacceptable path found index)
  | .inr (.undecodable fault) => .undecodable fault

/-- The fault of a value that is no configuration. -/
def ofRefusal (path : Path) : Refusal → LoadFault
  | .violation violation => .config (.invalid path.text violation)
  | .unwritable => .unwritable

/-- The configuration that a document asks for. -/
def ofDocument (path : Path) (d : Yaml.Document) : Except LoadFault Config :=
  match d.rootCell with
  | .mapping entries =>
      let value? (k : Key) : Option Value :=
        (entries.find? fun entry => entry.1.value.same (.text k.name)).map fun entry =>
          d.value entry.2
      (ofEntries (entries.map fun entry => entry.1.value) value?).mapError (ofRefusal path)
  | .leaf ⟨.null, _⟩ => .ok {}
  | _ => .error (.config (.notMapping path))

/-- The document that the bytes of a file hold, if they hold one. -/
def documentOf (path : Path) (bytes : List UInt8) : Except LoadFault (Option Yaml.Document) :=
  let (cs, broken) := Text.Stream.read bytes
  (Yaml.Document.read cs broken).mapError (ofYamlError path)

/-- The configuration that the bytes of a file ask for. -/
def ofBytes (path : Path) (bytes : List UInt8) : Except LoadFault Config := do
  match ← documentOf path bytes with
  | none => return {}
  | some d => ofDocument path d

/-- The configuration of a file, for what reading its bytes comes to. -/
def ofContent (path : Path) (content : Except FileFault (List UInt8)) :
    Except LoadFault Config := do
  let bytes ← content.mapError fun fault => LoadFault.config (.unreadable path fault)
  ofBytes path bytes

/-- The configuration with the path of its file, or the defaults without one. -/
def load (fs : FileSystem) (current : List Text) (root : Path)
    (explicit fromEnvironment : Option Text) : Except LoadFault (Config × Option Path) := do
  match ← path? fs current root explicit fromEnvironment with
  | none => return ({}, none)
  | some path =>
      let config ← ofContent path (fs.read current path)
      return (config, some path)

end Config
end Bindery
