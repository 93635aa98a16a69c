import Bindery.Text.Basic
import Bindery.Text.Printable

/-!
# Quoted text

Messages quote the texts they name.  The quote is an apostrophe, unless the
text holds an apostrophe and no double quote.  Inside, the backslash, the quote
and the characters that are not printable are escaped.  A newline, a return and
a tab have a letter, and any other escape is `x`, `u` or `U` with two, four or
eight hexadecimal digits.  A half of a surrogate pair is not printable, so a
quoted text is a string.

Byte strings are quoted in the same way after a `b`.  All bytes outside the
printable part of ASCII are escaped by two digits.
-/

namespace Bindery.Text

/-- The apostrophe. -/
def apostrophe : Char := '\x27'

/-- The double quote. -/
def doubleQuote : Char := '\x22'

/-- The quote for a text, which may hold an apostrophe and a double quote. -/
def quoteFor (holdsApostrophe holdsDoubleQuote : Bool) : Char :=
  if holdsApostrophe && !holdsDoubleQuote then doubleQuote else apostrophe

/-- The hexadecimal digits of a number, at the given width. -/
def hexDigits : (width : Nat) → Nat → List Char
  | 0, _ => []
  | width + 1, n => hexDigits width (n / 16) ++ [Nat.digitChar (n % 16)]

/-- The escape of a character by its code point. -/
def escapeCode (n : Nat) : List Char :=
  if n < 0x100 then '\\' :: 'x' :: hexDigits 2 n
  else if n < 0x10000 then '\\' :: 'u' :: hexDigits 4 n
  else '\\' :: 'U' :: hexDigits 8 n

/-- A character inside quotes. -/
def quoteChar (quote c : Char) : List Char :=
  if c == quote || c == '\\' then ['\\', c]
  else if c == '\n' then ['\\', 'n']
  else if c == '\r' then ['\\', 'r']
  else if c == '\t' then ['\\', 't']
  else if isPrintable c then [c]
  else escapeCode c.toNat

/-- A code point inside quotes. -/
def quotePoint (quote : Char) : CodePoint → List Char
  | .char c => quoteChar quote c
  | .half index => escapeCode (CodePoint.half index).code

/-- A text in quotes. -/
def quoted (s : Text) : String :=
  let quote := quoteFor (s.contains apostrophe) (s.contains doubleQuote)
  String.ofList (quote :: s.flatMap (quotePoint quote) ++ [quote])

/-- A byte inside quotes. -/
def quoteByte (quote : Char) (b : UInt8) : List Char :=
  if b < 0x7F then quoteChar quote (Char.ofNat b.toNat) else escapeCode b.toNat

/-- A byte string in quotes. -/
def quotedBytes (bytes : List UInt8) : String :=
  let quote := quoteFor (bytes.contains 0x27) (bytes.contains 0x22)
  String.ofList ('b' :: quote :: bytes.flatMap (quoteByte quote) ++ [quote])

/-! ## Tests -/

example : quoted "it's" = "\"it's\"" := by decide
example : quoted "a\n\x07\\" = "'a\\n\\x07\\\\'" := by decide

example : quoted [.half 0x3D, .half 0x600] = "'\\ud83d\\ude00'" := by decide

end Bindery.Text
