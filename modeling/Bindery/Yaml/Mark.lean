import Bindery.Text.Basic

/-!
# Places in a text

A `Mark` is a place in a text by index, line and column, all from 0.  A line
ends at a newline and at U+0085, U+2028 and U+2029.  The byte order mark takes
no column.

A `Cursor` is a mark with the text that follows it.  No text holds the
character U+0000, so a cursor at the end shows it.  Whoever stands at a place
has looked at the character there, and may have looked further ahead.
`Cursor.reach` is the number of characters up to the last one looked at.
-/

namespace Bindery.Yaml

/-! ## Classes of characters -/

/-- The character shown at the end of a text. -/
def endOfText : Char := '\x00'

/-- The character ends a line. -/
def isBreak (c : Char) : Bool :=
  c == '\n' || c == '\r' || c == '\x85' || c == '\u2028' || c == '\u2029'

/-- The line ends here. -/
def endsLine (c : Char) : Bool := c == endOfText || isBreak c

/-- A word ends here, where a tab belongs to a word. -/
def endsWord (c : Char) : Bool := c == ' ' || endsLine c

/-- A token ends here. -/
def endsToken (c : Char) : Bool := c == '\t' || endsWord c

/-- The character may stand in the name of an anchor, a directive or a handle. -/
def isNameChar (c : Char) : Bool := c.isAlphanum || c == '-' || c == '_'

/-- The character is a hexadecimal digit. -/
def isHex (c : Char) : Bool :=
  c.isDigit || ('a' ≤ c && c ≤ 'f') || ('A' ≤ c && c ≤ 'F')

/-- The value of a hexadecimal digit. -/
def hexValue (c : Char) : Nat :=
  if c.isDigit then c.toNat - 48 else if 'a' ≤ c then c.toNat - 87 else c.toNat - 55

/-- The value of hexadecimal digits. -/
def hexNumber (cs : List Char) : Nat := cs.foldl (fun n c => n * 16 + hexValue c) 0

/-! ## Marks -/

/-- A place in a text. -/
structure Mark where
  /-- The number of characters before it. -/
  index : Nat := 0
  /-- The number of lines before it. -/
  line : Nat := 0
  /-- The number of columns before it in its line. -/
  column : Nat := 0
deriving DecidableEq, Repr, Inhabited

/-- The place behind a character. -/
def Mark.after (m : Mark) (c : Char) : Mark :=
  if isBreak c then ⟨m.index + 1, m.line + 1, 0⟩
  else if c == '\ufeff' then { m with index := m.index + 1 }
  else { m with index := m.index + 1, column := m.column + 1 }

/-- A place in a named file, with line and column from 1. -/
def Mark.describe (source : Text) (m : Mark) : Text :=
  let place := "\", line " ++ toString (m.line + 1) ++ ", column " ++ toString (m.column + 1)
  "  in \"" ++ source ++ place

/-! ## Cursors -/

/-- A place with the text behind it. -/
structure Cursor where
  /-- The text behind the place. -/
  rest : List Char
  /-- The place. -/
  mark : Mark
  /-- The number of characters up to the last one that was looked at from afar. -/
  seen : Nat := 0
deriving DecidableEq, Repr

namespace Cursor

/-- The start of a text. -/
def start (cs : List Char) : Cursor := { rest := cs, mark := {} }

/-- The number of characters up to the last one that was looked at. -/
def reach (c : Cursor) : Nat := max c.seen (c.mark.index + 1)

/-- The cursor when so many characters that come next were looked at. -/
def look (n : Nat) (c : Cursor) : Cursor := { c with seen := max c.seen (c.mark.index + n) }

/-- The character at a distance. -/
def ahead (c : Cursor) (n : Nat) : Char := (c.rest.drop n).headD endOfText

/-- The next character. -/
def peek (c : Cursor) : Char := c.rest.headD endOfText

/-- The place behind the next character. -/
def next (c : Cursor) : Cursor :=
  match c.rest with
  | [] => c
  | x :: rest => { c with rest, mark := c.mark.after x }

/-- The place behind the next characters. -/
def skip : (n : Nat) → Cursor → Cursor
  | 0, c => c
  | n + 1, c => skip n c.next

/-- The characters of a class at the front of a text, what follows them, and the
place behind them. -/
def spanFrom (p : Char → Bool) : List Char → Mark → List Char × List Char × Mark
  | [], m => ([], [], m)
  | x :: xs, m =>
      if p x then
        let (taken, rest, m) := spanFrom p xs (m.after x)
        (x :: taken, rest, m)
      else ([], x :: xs, m)

/-- The characters of a class that come next, and the place behind them. -/
def span (p : Char → Bool) (c : Cursor) : List Char × Cursor :=
  let (taken, rest, mark) := spanFrom p c.rest c.mark
  (taken, { c with rest, mark })

/-- The place behind the characters of a class. -/
def skipWhile (p : Char → Bool) (c : Cursor) : Cursor := (c.span p).2

/-- The place behind blanks. -/
def skipSpaces (c : Cursor) : Cursor := c.skipWhile (· == ' ')

/-- The place behind blanks and a comment. -/
def skipComment (c : Cursor) : Cursor :=
  let c := c.skipSpaces
  if c.peek == '#' then c.skipWhile (fun x => !endsLine x) else c

/-- The line end that comes next, as it reads in a scalar, and the place behind it. -/
def lineBreak? (c : Cursor) : Option (Char × Cursor) :=
  let x := c.peek
  if x == '\n' || x == '\r' || x == '\x85' then some ('\n', c.next)
  else if isBreak x then some (x, c.next)
  else none

/-- The place behind a line end, if one comes next. -/
def skipBreak (c : Cursor) : Cursor := (c.lineBreak?.map Prod.snd).getD c

/-- Three signs that separate documents come next. -/
def hasSigns (c : Cursor) : Bool :=
  c.rest.take 3 == ['-', '-', '-'] || c.rest.take 3 == ['.', '.', '.']

/-- The next line separates documents by three signs. -/
def atSeparator (c : Cursor) : Bool := c.hasSigns && endsToken (c.ahead 3)

/-- The cursor when it was looked whether the next line separates documents.  The
character behind the signs is looked at only if they are there. -/
def lookForSeparator (c : Cursor) : Cursor := c.look (if c.hasSigns then 4 else 3)

end Cursor
end Bindery.Yaml
