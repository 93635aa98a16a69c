import Bindery.Number.Basic
import Bindery.Text.Basic

/-!
# JSON values

Log lines, summaries and the error object are JSON.  An integer and a binary
number are different values, and an object keeps the order of its members.

`Json.put` sets a member, in its place if the object has it and at the end if
not.
-/

namespace Bindery

/-- A JSON value. -/
inductive Json where
  /-- `null`. -/
  | null
  /-- `true` or `false`. -/
  | bool (b : Bool)
  /-- A number. -/
  | number (n : Number)
  /-- A string. -/
  | text (s : Text)
  /-- An array. -/
  | list (items : List Json)
  /-- An object. -/
  | object (members : List (Text × Json))
deriving Repr, Inhabited

namespace Json

/-- An integer. -/
def int (n : Int) : Json := .number (.int n)

/-- A list of strings. -/
def texts (items : List Text) : Json := .list (items.map .text)

/-- A string, or `null` for none. -/
def textOrNull : Option Text → Json
  | some s => .text s
  | none => .null

/-- The members of an object with one of them set. -/
def put (name : Text) (value : Json) : List (Text × Json) → List (Text × Json)
  | [] => [(name, value)]
  | (other, old) :: members =>
      if other = name then (name, value) :: members else (other, old) :: put name value members

/-- The members of an object with those of another one set, in their order. -/
def putAll (members new : List (Text × Json)) : List (Text × Json) :=
  new.foldl (fun acc m => put m.1 m.2 acc) members

/-- The value of a name among members. -/
def valueOf? (name : Text) (members : List (Text × Json)) : Option Json := members.lookup name

/-- The member of an object. -/
def member? (name : Text) : Json → Option Json
  | .object members => valueOf? name members
  | _ => none

/-- The parts that a value has one after the other, if it has any: the items of an
array, the characters of a string, the names of an object. -/
def parts? : Json → Option (List Json)
  | .list items => some items
  | .text s => some (s.map fun x => .text [x])
  | .object members => some (members.map fun m => .text m.1)
  | _ => none

/-- The value stands for nothing: `null`, `false`, a zero, or something empty. -/
def isVoid : Json → Bool
  | .null => true
  | .bool b => !b
  | .number n => n.same (.int 0)
  | .text s => s.isEmpty
  | .list items => items.isEmpty
  | .object members => members.isEmpty

end Json
end Bindery
