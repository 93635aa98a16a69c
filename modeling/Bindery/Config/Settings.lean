import Bindery.Config.Basic
import Bindery.Path

/-!
# Settings

`Settings` are values for all keys of the configuration that nothing has
checked.  They start from the defaults and are overridden by name.  A null
overrides nothing, and then its name does not matter either.  Only the name for
the settings as a whole is never taken.

The pipeline works with settings.  Where it needs a text or a path and the value
is none, there is a `Settings.Fault`.
-/

namespace Bindery

/-- A value for each key, of any kind. -/
structure Settings where
  /-- The value of a key. -/
  value : Key → Value

namespace Settings

/-- The settings of a configuration. -/
def ofConfig (c : Config) : Settings := ⟨c.get⟩

/-- The settings with one key set. -/
def set (s : Settings) (k : Key) (v : Value) : Settings :=
  ⟨fun l => if l = k then v else s.value l⟩

/-- The settings with some of them set by name, or none if a name is unknown. -/
def assign? (s : Settings) : List (Text × Value) → Option Settings
  | [] => some s
  | (name, v) :: changes => do (s.set (← Key.ofName? name) v).assign? changes

/-- The value is null. -/
def isNull : Value → Bool
  | .null => true
  | _ => false

/-- The name for the settings as a whole. -/
def wholeName : Text := "self"

/-- The settings with some of them overridden by name. -/
def override? (s : Settings) (changes : List (Text × Value)) : Option Settings :=
  if changes.any fun change => change.1 == wholeName then none
  else s.assign? (changes.filter fun change => !isNull change.2)

/-- The pinned dependency as the package manager takes it. -/
def compatSpec (s : Settings) : Text :=
  (s.value .compatPackage).plain ++ "@" ++ (s.value .compatVersion).plain

/-- All values are equal. -/
def same (s t : Settings) : Bool := Key.all.all fun k => (s.value k).same (t.value k)

/-! ## Faults -/

/-- Why a setting cannot be used. -/
inductive Fault where
  /-- The ref to publish is blank. -/
  | blankRef
  /-- A value of some kind would have to be a text, for what is done to it. -/
  | notText (kind operation : String)
  /-- A value would have to be a path. -/
  | notPath
deriving DecidableEq, Repr

/-- The words for a fault. -/
def Fault.message : Fault → String
  | .blankRef => "ref name must be non-empty"
  | .notText kind operation => Value.lackMessage kind operation
  | .notPath => "the value is no path"

/-- The text that a value is, for an operation on it. -/
def textFor (operation : String) : Value → Except Fault Text
  | .text s => .ok s
  | v => .error (.notText v.kindName operation)

/-- The path that a value is. -/
def pathOf : Value → Except Fault Path
  | .text s => .ok (Path.parse s)
  | _ => .error .notPath

end Settings
end Bindery
