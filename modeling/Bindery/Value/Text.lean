import Bindery.Value.Basic

/-!
# Values in messages

A message shows a value as a literal: texts are quoted, lists stand in square
brackets, pairs in round ones, and mappings and sets in curly ones.  A text log
shows a value plainly.  Then a text is not quoted, and a day or a time is in the
form of ISO 8601, but inside a list all is shown as a literal.

An integer with too many digits is never written.  `isWritable` says that a value
holds none.
-/

namespace Bindery.Value

/-- Texts between brackets, with commas. -/
def enclose (opening closing : String) (items : List String) : String :=
  opening ++ ", ".intercalate items ++ closing

/-- The literal of a value that contains no others. -/
def leafLiteral : Value → String
  | .null => "None"
  | .bool b => if b then "True" else "False"
  | .number n => n.text
  | .text s => Text.quoted s
  | .bytes bs => Text.quotedBytes bs
  | .date d => d.literal
  | .time t => t.literal
  | .again .list => "[...]"
  | .again .mapping => "\x7b...\x7d"
  | _ => ""

mutual

/-- The literal of a value. -/
def literal : Value → String
  | .list items => enclose "[" "]" (literals items)
  | .pair first second => enclose "(" ")" [literal first, literal second]
  | .mapping entries => enclose "\x7b" "\x7d" (entryLiterals entries)
  | .set items => if items.isEmpty then "set()" else enclose "\x7b" "\x7d" (literals items)
  | v => leafLiteral v

/-- The literals of the items of a list. -/
def literals : List Value → List String
  | [] => []
  | v :: vs => literal v :: literals vs

/-- The literals of the entries of a mapping. -/
def entryLiterals : List (Value × Value) → List String
  | [] => []
  | (k, v) :: entries => (literal k ++ ": " ++ literal v) :: entryLiterals entries

end

/-- A value as plain text. -/
def plain : Value → Text
  | .text s => s
  | .date d => d.iso
  | .time t => t.iso " "
  | v => literal v

/-! ## Kinds -/

/-- The name of the kind of a value. -/
def kindName : Value → String
  | .null => "NoneType"
  | .bool _ => "bool"
  | .number (.int _) => "int"
  | .number (.float _) => "float"
  | .text _ => "str"
  | .bytes _ => "bytes"
  | .date _ => "datetime.date"
  | .time _ => "datetime.datetime"
  | .list _ | .again .list => "list"
  | .pair _ _ => "tuple"
  | .mapping _ | .again .mapping => "dict"
  | .set _ => "set"

/-- The report of a value of a kind that an operation on texts meets. -/
def lackMessage (kind operation : String) : String :=
  "'" ++ kind ++ "' object has no attribute " ++ Text.quoted operation

/-! ## Length -/

mutual

/-- The value holds no integer that is too long to be written. -/
def isWritable : Value → Bool
  | .number n => n.isWritable
  | .list items => areWritable items
  | .pair first second => isWritable first && isWritable second
  | .mapping entries => entriesAreWritable entries
  | .set items => areWritable items
  | _ => true

/-- No item holds an integer that is too long to be written. -/
def areWritable : List Value → Bool
  | [] => true
  | v :: vs => isWritable v && areWritable vs

/-- No entry holds an integer that is too long to be written. -/
def entriesAreWritable : List (Value × Value) → Bool
  | [] => true
  | (k, v) :: entries => isWritable k && isWritable v && entriesAreWritable entries

end

/-! ## Tests -/

example : literal (.list [.number (.int 1), .text "a", .null, .bool true]) =
    "[1, 'a', None, True]" := by decide
example : lackMessage (kindName .null) "strip" = "'NoneType' object has no attribute 'strip'" := by
  decide
example : literal (.mapping [(.text "k", .pair (.text "it's") (.list []))]) =
    "\x7b'k': (\"it's\", [])\x7d" := by decide

end Bindery.Value
