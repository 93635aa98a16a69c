import Bindery.Json.Basic
import Bindery.Text.Order
import Bindery.Text.Quoted

/-!
# JSON text

`Json.render` writes a value with the members of every object in the order of
their names, in one of two layouts.  `Layout.line` puts everything on one line,
with a blank after each comma and colon.  `Layout.block` gives each item and
each member a line of its own, indented by two blanks for each level.

Strings are written in ASCII.  A character beyond it is one escape of four
digits for each of its UTF-16 units.  So is a control character that has no
letter, and U+007F.  A half of a surrogate pair is one unit.
-/

namespace Bindery.Json

open Text (hexDigits sortOn)

/-! ## Strings -/

/-- The escape of a UTF-16 unit. -/
def unitEscape (n : Nat) : List Char := '\\' :: 'u' :: hexDigits 4 n

/-- A character of a string. -/
def renderChar (c : Char) : List Char :=
  let n := c.toNat
  if c == '\x22' then ['\\', '\x22']
  else if c == '\\' then ['\\', '\\']
  else if 0x20 ≤ n && n < 0x7F then [c]
  else if c == '\n' then ['\\', 'n']
  else if c == '\r' then ['\\', 'r']
  else if c == '\t' then ['\\', 't']
  else if n == 0x08 then ['\\', 'b']
  else if n == 0x0C then ['\\', 'f']
  else if n < 0x10000 then unitEscape n
  else
    unitEscape (0xD800 + (n - 0x10000) / 0x400) ++ unitEscape (0xDC00 + (n - 0x10000) % 0x400)

/-- A code point of a string. -/
def renderPoint : CodePoint → List Char
  | .char c => renderChar c
  | .half index => unitEscape (CodePoint.half index).code

/-- A string in quotes. -/
def renderText (s : Text) : List Char := '\x22' :: s.flatMap renderPoint ++ ['\x22']

/-! ## Numbers -/

/-- A number.  The values that are not finite have names of their own. -/
def renderNumber : Number → String
  | .int n => toString n
  | .float x =>
      match Parts.ofFloat x with
      | .nan => "NaN"
      | .infinite negative => if negative then "-Infinity" else "Infinity"
      | parts => parts.render

/-! ## Layout -/

/-- Where the line ends are. -/
inductive Layout where
  /-- Everything on one line. -/
  | line
  /-- A line for each item and each member. -/
  | block
deriving DecidableEq, Repr

/-- A line end and the indentation of a level. -/
def lineAt (depth : Nat) : List Char := '\n' :: List.replicate (2 * depth) ' '

/-- Written items between brackets.  `depth` is the level of the brackets. -/
def bracket (layout : Layout) (depth : Nat) (opening closing : Char)
    (items : List (List Char)) : List Char :=
  match layout, items with
  | _, [] => [opening, closing]
  | .line, items => opening :: List.intercalate [',', ' '] items ++ [closing]
  | .block, items =>
      opening :: lineAt (depth + 1) ++ List.intercalate (',' :: lineAt (depth + 1)) items ++
        lineAt depth ++ [closing]

/-! ## Values -/

mutual

/-- The text of a value whose brackets stand at a level. -/
def renderAt (layout : Layout) (depth : Nat) : Json → List Char
  | .null => "null".toList
  | .bool b => (if b then "true" else "false").toList
  | .number n => (renderNumber n).toList
  | .text s => renderText s
  | .list items => bracket layout depth '[' ']' (renderItems layout (depth + 1) items)
  | .object members =>
      bracket layout depth '\x7b' '\x7d'
        ((sortOn (fun m => m.1) (renderMembers layout (depth + 1) members)).map Prod.snd)

/-- The texts of the items of an array. -/
def renderItems (layout : Layout) (depth : Nat) : List Json → List (List Char)
  | [] => []
  | item :: items => renderAt layout depth item :: renderItems layout depth items

/-- The texts of the members of an object, each with its name in front. -/
def renderMembers (layout : Layout) (depth : Nat) :
    List (Text × Json) → List (Text × List Char)
  | [] => []
  | (name, value) :: members =>
      (name, renderText name ++ [':', ' '] ++ renderAt layout depth value) ::
        renderMembers layout depth members

end

/-- The text of a value. -/
def render (layout : Layout) (value : Json) : String := String.ofList (renderAt layout 0 value)

/-! ## Tests -/

example : render .line (.object [("b", .list [.int 1, .null]), ("a", .text "é\n💥")]) =
    "\x7b\"a\": \"\\u00e9\\n\\ud83d\\udca5\", \"b\": [1, null]\x7d" := by decide

example : render .line (.text [.half 0x3D, .half 0x600]) = "\x22\\ud83d\\ude00\x22" := by decide

end Bindery.Json
