import Bindery.Json.Basic
import Bindery.Time

/-!
# Values

A configuration file delivers more kinds of value than JSON has: days, times,
byte strings, pairs, sets, and mappings with keys of any kind.  A list or a
mapping of the file may also contain itself.  Where the inner one would stand
again, a `Value` has `again`.

`Value.same` is equality by value.  Numbers of different kinds and truth values
may be equal, with `true` as 1 and `false` as 0.  The order of the entries of a
mapping does not matter.
-/

namespace Bindery

/-- The kinds of value that may contain themselves. -/
inductive Container where
  /-- A list. -/
  | list
  /-- A mapping. -/
  | mapping
deriving DecidableEq, Repr

/-- A value of a configuration file. -/
inductive Value where
  /-- Nothing. -/
  | null
  /-- A truth value. -/
  | bool (b : Bool)
  /-- A number. -/
  | number (n : Number)
  /-- A text. -/
  | text (s : Text)
  /-- A byte string. -/
  | bytes (bs : List UInt8)
  /-- A day. -/
  | date (d : Date)
  /-- A time. -/
  | time (t : Timestamp)
  /-- A list. -/
  | list (items : List Value)
  /-- Two values. -/
  | pair (first second : Value)
  /-- A mapping. -/
  | mapping (entries : List (Value × Value))
  /-- A set. -/
  | set (items : List Value)
  /-- A value that stands inside itself. -/
  | again (kind : Container)
deriving Repr, Inhabited

namespace Value

/-! ## Values from JSON -/

mutual

/-- A JSON value as a value. -/
def ofJson : Json → Value
  | .null => .null
  | .bool b => .bool b
  | .number n => .number n
  | .text s => .text s
  | .list items => .list (ofItems items)
  | .object members => .mapping (ofMembers members)

/-- The items of an array as values. -/
def ofItems : List Json → List Value
  | [] => []
  | item :: items => ofJson item :: ofItems items

/-- The members of an object as entries. -/
def ofMembers : List (Text × Json) → List (Value × Value)
  | [] => []
  | (name, value) :: members => (.text name, ofJson value) :: ofMembers members

end

/-! ## Texts among the values -/

/-- The text that a value is, if it is one. -/
def text? : Value → Option Text
  | .text s => some s
  | _ => none

/-- The texts that values are, if all of them are texts. -/
def texts? (vs : List Value) : Option (List Text) := vs.mapM text?

theorem texts?_map_text (ss : List Text) : texts? (ss.map .text) = some ss := by
  induction ss with
  | nil => rfl
  | cons s ss ih =>
      simp only [texts?] at ih
      simp [texts?, text?, ih]

/-! ## Equality by value -/

/-- The number a value counts as. -/
def number? : Value → Option Number
  | .bool b => some (.int (if b then 1 else 0))
  | .number n => some n
  | _ => none

/-- Equality of the values that contain no others. -/
def sameLeaf (a b : Value) : Bool :=
  match a, b with
  | .null, .null => true
  | .text s, .text t => s == t
  | .bytes s, .bytes t => s == t
  | .date d, .date e => d == e
  | .time t, .time u => t.same u
  | .again k, .again l => k == l
  | a, b =>
      match a.number?, b.number? with
      | some m, some n => m.same n
      | _, _ => false

mutual

/-- Equality by value. -/
def same : Value → Value → Bool
  | .list as, .list bs => sameItems as bs
  | .pair a b, .pair c d => same a c && same b d
  | .mapping as, .mapping bs => as.length == bs.length && entriesIn as bs
  | .set as, .set bs => as.length == bs.length && itemsIn as bs
  | a, b => sameLeaf a b

/-- Two lists have equal items in their order. -/
def sameItems : List Value → List Value → Bool
  | [], [] => true
  | a :: as, b :: bs => same a b && sameItems as bs
  | _, _ => false

/-- Every entry has an equal one among others. -/
def entriesIn : List (Value × Value) → List (Value × Value) → Bool
  | [], _ => true
  | (k, v) :: as, bs => (bs.any fun b => same k b.1 && same v b.2) && entriesIn as bs

/-- Every item has an equal one among others. -/
def itemsIn : List Value → List Value → Bool
  | [], _ => true
  | a :: as, bs => (bs.any fun b => same a b) && itemsIn as bs

end

/-! ## Mappings -/

/-- The value under a text key. -/
def lookup (name : Text) : List (Value × Value) → Option Value
  | [] => none
  | (.text s, value) :: entries => if s = name then some value else lookup name entries
  | _ :: entries => lookup name entries

end Value
end Bindery
